import DbnPipe.Http.HttpBounds
import DbnPipe.Live.CramBounds
import DbnPipe.Stream.TlsBounds
import DbnPipe.Stream.ZstdBounds

/-!
# The limits of the buffers

`HttpClient`, `ZstdDecompressor`, `TlsTransport` and `CramAuth`, each between any upstream and any downstream.

* `Limited` — a component stays within its limits: **in every state that calls lead to**, and in every state in which
  it calls its downstream;
* `Handlers.Keep.limited` — from what its functions keep;
* `limits_hold` — the four components do.
-/

namespace DbnPipe

open Callbacks

variable {σ : Type}

/-- Wherever calls lead, nested in any way, the buffers are guarded.  `deliver` is called in guarded states only: as
long as it leads from these to these, every call does. -/
structure Limited (H : Handlers σ) (Bounded : σ → Prop) (Guarded : Component σ → Prop) (start : Component σ) :
    Prop where
  guarded : ∀ c, Owns Bounded c → Guarded c
  called : ∀ deliver, Keeps (Owns Bounded) deliver → ∀ i, Keeps (Owns Bounded) (H.call deliver i)
  reached : ∀ c, H.Reachable start c → Owns Bounded c ∧ Guarded c

theorem Handlers.Keep.limited {H : Handlers σ} {Bounded : σ → Prop} (hH : H.Keep Bounded)
    {Guarded : Component σ → Prop} (hguarded : ∀ c, Owns Bounded c → Guarded c) {start : Component σ}
    (hstart : Owns Bounded start) : Limited H Bounded Guarded start where
  guarded := hguarded
  called _ hd := hH.call hd
  reached c h := by
    have hbounded := hH.reachable h hstart
    exact ⟨hbounded, hguarded c hbounded⟩

/-- **No check wraps around, and what does not fit is refused**: in every state of the four components, with any
parser, decoder and connection, under any calls in any order, each call nested in any others. -/
theorem limits_hold :
    (∀ L, Limited (Http.handlers L) Http.Bounded Http.Guarded (Http.newClient L)) ∧
      (∀ Z (δ : Type) (next : δ),
        Limited (Zstd.handlers Z δ) Zstd.Bounded Zstd.Guarded (Zstd.newZstdDecompressor Z next)) ∧
      (∀ S rounds ssl, Limited (Tls.handlers S rounds) Tls.Bounded Tls.Guarded (Tls.newTlsTransport ssl)) ∧
      ∀ sha256 apiKey dataset,
        Limited (Live.handlers sha256) Live.Bounded Live.Guarded (Live.newCramAuth apiKey dataset) := by
  refine ⟨fun L => ?_, fun Z δ next => ?_, fun S rounds ssl => ?_, fun sha256 apiKey dataset => ?_⟩
  · exact (Http.handlers_keep L).limited (fun _ => Http.Bounded.guarded) (Http.bounded_new L)
  · exact (Zstd.handlers_keep Z δ).limited (fun _ => Zstd.Bounded.guarded) (Zstd.bounded_new Z next)
  · exact (Tls.handlers_keep S rounds).limited (fun _ => Tls.Bounded.guarded) (Tls.bounded_new ssl)
  · exact (Live.handlers_keep sha256).limited (fun _ => Live.Bounded.guarded) (Live.bounded_new apiKey dataset)

end DbnPipe
