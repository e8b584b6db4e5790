import Mathlib.Data.List.Induction
import RowStream.Proofs.Stream.Stateful
import RowStream.Stream.Rows

/-!
# What a sink takes

A batch is taken when the sink is open, its deadline has not passed and it writes the batch
(`Takes`); otherwise it is refused for one of three causes (`Refuses`), and only the last of them
has the sink see the batch at all. `Collects` follows a sink over several batches. `Sink.logged`
keeps a log of the batches that a sink was asked to write, which changes nothing else.
-/

namespace RowStream

/-- A batch that a sink was asked to write, and whether it did. -/
structure Delivery where
  batch : List UInt8
  written : Bool
deriving DecidableEq, Repr

namespace Sink

variable {τ : Type}

/-- The sink takes a batch at a reading of the clock. -/
structure Takes (sink : Sink τ) (deadline : Option Nat) (now : Nat) (batch : List UInt8)
    (t t' : τ) : Prop where
  isOpen : sink.isOpen t = true
  inTime : deadline.any (· ≤ now) = false
  written : (sink.write batch).runFrom t = (.ok (), t')

/-- The sink refuses a batch at a reading of the clock. -/
inductive Refuses (sink : Sink τ) (deadline : Option Nat) (now : Nat) (batch : List UInt8) :
    τ → AbortCause → τ → Prop
  | closed {t : τ} (hopen : sink.isOpen t = false) :
      sink.Refuses deadline now batch t .sinkClosed t
  | late {t : τ} (hopen : sink.isOpen t = true) (hlate : deadline.any (· ≤ now) = true) :
      sink.Refuses deadline now batch t .deadlineExceeded t
  | failed {t t' : τ} {report : Report} (hopen : sink.isOpen t = true)
      (htime : deadline.any (· ≤ now) = false)
      (hwrite : (sink.write batch).runFrom t = (.error report, t')) :
      sink.Refuses deadline now batch t (.writeFailed report) t'

/-- The sink takes batches one after the other; the clock is read once for each. -/
inductive Collects (sink : Sink τ) (deadline : Option Nat) (clock : Clock) (t : τ) :
    List (List UInt8) → τ → Prop
  | none : sink.Collects deadline clock t [] t
  | snoc {batches : List (List UInt8)} {batch : List UInt8} {t₁ t₂ : τ}
      (hbefore : sink.Collects deadline clock t batches t₁)
      (htakes : sink.Takes deadline (clock (batches.length + 1)) batch t₁ t₂) :
      sink.Collects deadline clock t (batches ++ [batch]) t₂

/-- The sink is open in all states that satisfy `inv`, and writing any batch leads from one of them
to another. -/
structure OpenWhile (sink : Sink τ) (inv : τ → Prop) : Prop where
  isOpen : ∀ t, inv t → sink.isOpen t = true
  writes : ∀ t batch, inv t → ∃ t', (sink.write batch).runFrom t = (.ok (), t') ∧ inv t'

/-- The sink is open and stays so, whatever it is given to write. -/
def StaysOpen (sink : Sink τ) (t : τ) : Prop := ∃ inv, sink.OpenWhile inv ∧ inv t

theorem takes_or_refuses (sink : Sink τ) (deadline : Option Nat) (now : Nat) (batch : List UInt8)
    (t : τ) :
    (∃ t', sink.Takes deadline now batch t t') ∨
      ∃ cause t', sink.Refuses deadline now batch t cause t' := by
  cases hopen : sink.isOpen t with
  | false => exact .inr ⟨_, _, .closed hopen⟩
  | true =>
      cases htime : deadline.any (· ≤ now) with
      | true => exact .inr ⟨_, _, .late hopen htime⟩
      | false =>
          rcases hwrite : (sink.write batch).runFrom t with ⟨report | ⟨⟩, t'⟩
          · exact .inr ⟨_, _, .failed hopen htime hwrite⟩
          · exact .inl ⟨t', hopen, htime, hwrite⟩

theorem runFrom_flush_of_takes {sink : Sink τ} {deadline : Option Nat} {now : Nat}
    {batch : List UInt8} {stats : Stats} {t t' : τ} (h : sink.Takes deadline now batch t t') :
    (flush sink deadline now batch stats).runFrom t =
      (.ok { stats with batches := stats.batches + 1, bytes := stats.bytes + batch.length },
        t') := by
  unfold flush
  rw [Stateful.runFrom_bind_of_ok (Stateful.runFrom_get t), h.isOpen, h.inTime]
  exact Stateful.runFrom_bind_of_ok (Stateful.runFrom_mapError_ok.2 h.written)

theorem runFrom_flush_of_refuses {sink : Sink τ} {deadline : Option Nat} {now : Nat}
    {batch : List UInt8} {stats : Stats} {t t' : τ} {cause : AbortCause}
    (h : sink.Refuses deadline now batch t cause t') :
    (flush sink deadline now batch stats).runFrom t = (.error (.aborted cause), t') := by
  unfold flush
  rw [Stateful.runFrom_bind_of_ok (Stateful.runFrom_get t)]
  cases h with
  | closed hopen =>
      rw [hopen]
      rfl
  | late hopen hlate =>
      rw [hopen, hlate]
      rfl
  | failed hopen htime hwrite =>
      rw [hopen, htime]
      exact Stateful.runFrom_bind_of_error (Stateful.runFrom_mapError_error.2 ⟨_, hwrite, rfl⟩)

theorem StaysOpen.collects {sink : Sink τ} {deadline : Option Nat} {clock : Clock} {t : τ}
    (hsink : sink.StaysOpen t) (htime : ∀ n, deadline.any (· ≤ clock n) = false)
    (batches : List (List UInt8)) : ∃ t', sink.Collects deadline clock t batches t' := by
  obtain ⟨inv, hinv, ht⟩ := hsink
  have hall : ∃ t', sink.Collects deadline clock t batches t' ∧ inv t' := by
    induction batches using List.reverseRecOn with
    | nil => exact ⟨t, .none, ht⟩
    | append_singleton batches batch ih =>
        obtain ⟨t₁, hbefore, ht₁⟩ := ih
        obtain ⟨t₂, hwrite, ht₂⟩ := hinv.writes t₁ batch ht₁
        exact ⟨t₂, .snoc hbefore ⟨hinv.isOpen t₁ ht₁, htime _, hwrite⟩, ht₂⟩
  obtain ⟨t', hcollects, -⟩ := hall
  exact ⟨t', hcollects⟩

theorem collects_nil_iff {sink : Sink τ} {deadline : Option Nat} {clock : Clock} {t t' : τ} :
    sink.Collects deadline clock t [] t' ↔ t' = t := by
  constructor
  · intro h
    generalize hall : ([] : List (List UInt8)) = all at h
    cases h with
    | none => rfl
    | snoc hbefore htakes => simp at hall
  · rintro rfl
    exact .none

theorem Collects.of_append_singleton {sink : Sink τ} {deadline : Option Nat} {clock : Clock}
    {t t₂ : τ} {batches : List (List UInt8)} {batch : List UInt8}
    (h : sink.Collects deadline clock t (batches ++ [batch]) t₂) :
    ∃ t₁, sink.Collects deadline clock t batches t₁ ∧
      sink.Takes deadline (clock (batches.length + 1)) batch t₁ t₂ := by
  generalize hall : batches ++ [batch] = all at h
  cases h with
  | none => simp at hall
  | snoc hbefore htakes =>
      obtain ⟨rfl, hlast⟩ := List.append_inj' hall rfl
      cases hlast
      exact ⟨_, hbefore, htakes⟩

/-- The sink with a log of the batches that it is asked to write. -/
def logged (sink : Sink τ) : Sink (τ × List Delivery) where
  isOpen p := sink.isOpen p.1
  deadline p := sink.deadline p.1
  write batch := ExceptT.mk fun (t, log) =>
    let (result, t') := (sink.write batch).runFrom t
    (result, (t', log ++ [⟨batch, result.isOk⟩]))

theorem runFrom_write_logged (sink : Sink τ) (batch : List UInt8) (t : τ) (log : List Delivery) :
    (sink.logged.write batch).runFrom (t, log) =
      (((sink.write batch).runFrom t).1, ((sink.write batch).runFrom t).2,
        log ++ [⟨batch, ((sink.write batch).runFrom t).1.isOk⟩]) := rfl

theorem takes_logged {sink : Sink τ} {deadline : Option Nat} {now : Nat} {batch : List UInt8}
    {t t' : τ} (log : List Delivery) (h : sink.Takes deadline now batch t t') :
    sink.logged.Takes deadline now batch (t, log) (t', log ++ [⟨batch, true⟩]) := by
  refine ⟨h.isOpen, h.inTime, ?_⟩
  rw [runFrom_write_logged, h.written]
  rfl

/-- The entry that a refusal makes in the log: the sink sees a batch only when it fails
to write it. -/
def refusalLog (batch : List UInt8) : AbortCause → List Delivery
  | .writeFailed _ => [⟨batch, false⟩]
  | _ => []

theorem refuses_logged {sink : Sink τ} {deadline : Option Nat} {now : Nat} {batch : List UInt8}
    {cause : AbortCause} {t t' : τ} (log : List Delivery)
    (h : sink.Refuses deadline now batch t cause t') :
    sink.logged.Refuses deadline now batch (t, log) cause (t', log ++ refusalLog batch cause) := by
  cases h with
  | closed hopen =>
      rw [refusalLog, List.append_nil]
      · exact .closed hopen
      · intro report hc
        cases hc
  | late hopen hlate =>
      rw [refusalLog, List.append_nil]
      · exact .late hopen hlate
      · intro report hc
        cases hc
  | failed hopen htime hwrite =>
      refine .failed hopen htime ?_
      rw [runFrom_write_logged, hwrite]
      rfl

theorem collects_logged {sink : Sink τ} {deadline : Option Nat} {clock : Clock} {t t' : τ}
    {batches : List (List UInt8)} (log : List Delivery)
    (h : sink.Collects deadline clock t batches t') :
    sink.logged.Collects deadline clock (t, log) batches
      (t', log ++ batches.map (⟨·, true⟩)) := by
  induction h with
  | none =>
      rw [List.map_nil, List.append_nil]
      exact .none
  | snoc hbefore htakes ih =>
      rw [List.map_append, List.map_singleton, ← List.append_assoc]
      exact .snoc ih (takes_logged _ htakes)

end Sink

theorem Collector.staysOpen_sink {c : Collector} (h : c.closed = false) :
    Collector.sink.StaysOpen c := by
  refine ⟨fun c => c.closed = false, ⟨?_, ?_⟩, h⟩
  · intro c hc
    change (!c.closed) = true
    rw [hc]
    rfl
  · intro c batch hc
    refine ⟨{ c with batches := c.batches ++ [batch] }, ?_, hc⟩
    change (write batch).runFrom c = _
    unfold write
    rw [Stateful.runFrom_bind_of_ok (Stateful.runFrom_get c), hc]
    rfl

theorem Channel.staysOpen_sink {c : Channel} (h : c.dropped = false) :
    Channel.sink.StaysOpen c := by
  refine ⟨fun c => c.dropped = false, ⟨?_, ?_⟩, h⟩
  · intro c hc
    change (!c.dropped) = true
    rw [hc]
    rfl
  · intro c batch hc
    refine ⟨{ c with pending := c.pending ++ [batch] }, ?_, hc⟩
    change (write batch).runFrom c = _
    unfold write
    rw [Stateful.runFrom_bind_of_ok (Stateful.runFrom_get c), hc]
    rfl

end RowStream
