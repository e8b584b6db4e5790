import Mathlib.Data.List.Forall2
import RowStream.Proofs.Stream.ReadBack
import RowStream.Stream.SingleRow

/-!
# Descriptions of requests

The answer to a debug request is one batch, which its table reads as one row of texts.
-/

namespace RowStream

variable {τ : Type} {sink : Sink τ} {clock : Clock} {t t' : τ} {texts : List String}

theorem runFrom_sendDescription_of_takes {batch : List (List UInt8)}
    (hbatch : texts.mapM Wire.text = .ok batch)
    (htakes : sink.Takes (sink.deadline t) (clock 1) batch.flatten t t') :
    (sendDescription texts sink clock).runFrom t =
      (.ok { rows := 1, batches := 1, bytes := batch.flatten.length }, t') := by
  have hencoded : (Stateful.ofExcept (texts.mapM Wire.text) : Stateful Error τ _).runFrom t =
      (.ok batch, t) := by
    rw [Stateful.runFrom_ofExcept, hbatch]
  unfold sendDescription
  rw [Stateful.runFrom_bind_of_ok hencoded, Stateful.runFrom_bind_of_ok (Stateful.runFrom_get t)]
  rw [Sink.runFrom_flush_of_takes htakes]
  simp

theorem takes_of_runFrom_sendDescription {stats : Stats}
    (h : (sendDescription texts sink clock).runFrom t = (.ok stats, t')) :
    ∃ batch, texts.mapM Wire.text = .ok batch ∧
      sink.Takes (sink.deadline t) (clock 1) batch.flatten t t' ∧
      stats = { rows := 1, batches := 1, bytes := batch.flatten.length } := by
  unfold sendDescription at h
  obtain ⟨batch, t₁, hencoded, h⟩ := Stateful.runFrom_bind_ok h
  rw [Stateful.runFrom_ofExcept] at hencoded
  have hbatch : texts.mapM Wire.text = .ok batch := congrArg Prod.fst hencoded
  have hstate : t = t₁ := congrArg Prod.snd hencoded
  subst hstate
  rw [Stateful.runFrom_bind_of_ok (Stateful.runFrom_get t)] at h
  obtain ⟨t₂, htakes⟩ | ⟨cause, t₂, hrefuses⟩ :=
    sink.takes_or_refuses (sink.deadline t) (clock 1) batch.flatten t
  · rw [Sink.runFrom_flush_of_takes htakes] at h
    cases h
    exact ⟨batch, hbatch, htakes, by simp⟩
  · rw [Sink.runFrom_flush_of_refuses hrefuses] at h
    cases h

variable [Zone.Catalogue]

theorem readsText_plainColumn {name text : String} {bytes : List UInt8}
    (h : Wire.text text = .ok bytes) : (plainColumn name .string).ReadsText bytes := by
  refine ⟨?_, text, ?_⟩
  · rw [(Wire.eq_of_text h).2]
    exact List.append_ne_nil_of_left_ne_nil (Wire.varint_ne_nil _) _
  · have hvalue : (plainColumn name .string).readValue.Consumes bytes (.ok text) :=
      Wire.consumes_readText h
    exact Column.consumes_readText_value hvalue

theorem readsText_plainColumns {names : List String} {batch : List (List UInt8)}
    (hlength : texts.length = names.length) (h : texts.mapM Wire.text = .ok batch) :
    List.Forall₂ Column.ReadsText (names.map fun name => plainColumn name .string) batch := by
  induction names generalizing texts batch with
  | nil =>
      rw [List.length_eq_zero_iff.1 hlength] at h
      cases h
      exact .nil
  | cons name names ih =>
      cases texts with
      | nil => cases hlength
      | cons text texts =>
          rw [List.mapM_cons] at h
          obtain ⟨bytes, hbytes, h⟩ := bind_ok h
          obtain ⟨rest, hrest, h⟩ := bind_ok h
          cases h
          exact .cons (readsText_plainColumn hbytes) (ih (by simpa using hlength) hrest)

end RowStream
