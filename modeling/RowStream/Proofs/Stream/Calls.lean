import RowStream.Proofs.Stream.SideBySide

/-!
# Calls of streams

The calls that a stream makes on its source. `RowSource.logged` keeps a log of them, each with the
state that it finds; the log changes nothing else. Whatever the source answers, a call for a cell
names the number of the row that was found last (`follows_calls`), and passing over rows makes no
such call.
-/

namespace RowStream

variable [Zone.Catalogue]

/-- A call on a source in the state that it finds. -/
inductive SourceCall (σ : Type) where
  | advance (state : σ)
  | isNull (state : σ) (row index : Nat) (column : Column)
  | read (state : σ) (row index : Nat) (column : Column)

namespace SourceCall

variable {σ : Type}

def state : SourceCall σ → σ
  | advance s => s
  | isNull s _ _ _ => s
  | read s _ _ _ => s

/-- The number of the row whose cell is asked for. -/
def row? : SourceCall σ → Option Nat
  | advance _ => none
  | isNull _ row _ _ => some row
  | read _ row _ _ => some row

def logging {α : Type} (call : σ → SourceCall σ) (x : Stateful Report σ α) :
    Stateful Report (σ × List (SourceCall σ)) α :=
  ExceptT.mk fun (s, log) =>
    let (result, s') := x.runFrom s
    (result, (s', log ++ [call s]))

theorem runFrom_logging {α : Type} (call : σ → SourceCall σ) (x : Stateful Report σ α) (s : σ)
    (log : List (SourceCall σ)) :
    (logging call x).runFrom (s, log) =
      ((x.runFrom s).1, (x.runFrom s).2, log ++ [call s]) := rfl

theorem agree_logging {α : Type} (call : σ → SourceCall σ) {x : Stateful Report σ α} {s : σ}
    {log : List (SourceCall σ)} {rel : α → σ → σ × List (SourceCall σ) → Prop}
    {torn : σ → σ × List (SourceCall σ) → Prop}
    (hok : ∀ a s', x.runFrom s = (.ok a, s') → rel a s' (s', log ++ [call s]))
    (herror : ∀ s', torn s' (s', log ++ [call s])) :
    Stateful.Agree rel torn (x.runFrom s) ((logging call x).runFrom (s, log)) :=
  Stateful.agree_of_result rfl (runFrom_logging call x s log)
    (fun a ha => hok a _ (Prod.ext ha rfl)) (herror _)

end SourceCall

namespace RowSource

variable {σ : Type}

/-- The source with a log of the calls on it. -/
def logged (source : RowSource σ) : RowSource (σ × List (SourceCall σ)) where
  advance := SourceCall.logging .advance source.advance
  isNull row index c := SourceCall.logging (.isNull · row index c) (source.isNull row index c)
  read row index c := SourceCall.logging (.read · row index c) (source.read row index c)

/-- Calls that succeed lead to a state in which so many rows have been found. -/
inductive Reaches (source : RowSource σ) (s : σ) : Nat → σ → Prop
  | start : source.Reaches s 0 s
  | advance {n : Nat} {s₁ s₂ : σ} (hbefore : source.Reaches s n s₁)
      (hadvance : source.advance.runFrom s₁ = (.ok true, s₂)) : source.Reaches s (n + 1) s₂
  | isNull {n row index : Nat} {c : Column} {null : Bool} {s₁ s₂ : σ}
      (hbefore : source.Reaches s (n + 1) s₁)
      (hnull : (source.isNull row index c).runFrom s₁ = (.ok null, s₂)) :
      source.Reaches s (n + 1) s₂
  | read {n row index : Nat} {c : Column} {bytes : List UInt8} {s₁ s₂ : σ}
      (hbefore : source.Reaches s (n + 1) s₁)
      (hread : (source.read row index c).runFrom s₁ = (.ok bytes, s₂)) :
      source.Reaches s (n + 1) s₂

/-- Each call comes behind calls that succeed, and one for a cell names the number of the row that
they have found last, counted from zero. -/
def Follows (source : RowSource σ) (s : σ) (calls : List (SourceCall σ)) : Prop :=
  ∀ call ∈ calls, ∃ n, source.Reaches s n call.state ∧ ∀ row, call.row? = some row → n = row + 1

theorem follows_nil (source : RowSource σ) (s : σ) : source.Follows s [] :=
  fun _ hcall => nomatch hcall

theorem Follows.append {source : RowSource σ} {s : σ} {calls : List (SourceCall σ)}
    {n : Nat} (h : source.Follows s calls) (call : SourceCall σ)
    (hreaches : source.Reaches s n call.state) (hrow : ∀ row, call.row? = some row → n = row + 1) :
    source.Follows s (calls ++ [call]) := by
  intro other hother
  obtain hbefore | hlast := List.mem_append.1 hother
  · exact h other hbefore
  · rw [List.mem_singleton.1 hlast]
    exact ⟨n, hreaches, hrow⟩

theorem agree_logged (source : RowSource σ) (s : σ) :
    source.Agree source.logged 0
      (fun n s₁ p => s₁ = p.1 ∧ source.Reaches s n p.1 ∧ source.Follows s p.2)
      (fun s₁ p => s₁ = p.1 ∧ source.Follows s p.2) where
  advance := by
    rintro n s₁ ⟨_, log⟩ ⟨rfl, hreaches, hlog⟩
    have hlog' := hlog.append (.advance s₁) hreaches (fun row hrow => nomatch hrow)
    refine SourceCall.agree_logging .advance ?_ (fun _ => ⟨rfl, hlog'⟩)
    intro more s₂ hadvance
    cases more with
    | true => exact ⟨rfl, .advance hreaches hadvance, hlog'⟩
    | false => exact ⟨rfl, hlog'⟩
  isNull := by
    rintro n s₁ ⟨_, log⟩ index c ⟨rfl, hreaches, hlog⟩
    rw [Nat.zero_add]
    have hlog' := hlog.append (.isNull s₁ n index c) hreaches
      (fun row hrow => by cases hrow; rfl)
    exact SourceCall.agree_logging (.isNull · n index c)
      (fun _ _ hnull => ⟨rfl, .isNull hreaches hnull, hlog'⟩) (fun _ => ⟨rfl, hlog'⟩)
  read := by
    rintro n s₁ ⟨_, log⟩ index c ⟨rfl, hreaches, hlog⟩
    rw [Nat.zero_add]
    have hlog' := hlog.append (.read s₁ n index c) hreaches
      (fun row hrow => by cases hrow; rfl)
    exact SourceCall.agree_logging (.read · n index c)
      (fun _ _ hread => ⟨rfl, .read hreaches hread, hlog'⟩) (fun _ => ⟨rfl, hlog'⟩)
  torn := by
    rintro n s₁ p ⟨hsame, -, hlog⟩
    exact ⟨hsame, hlog⟩

end RowSource

namespace StreamRequest

variable {σ τ : Type}

/-- The calls that a run makes on its source, in order. -/
def calls (r : StreamRequest) (source : RowSource σ) (sink : Sink τ) (clock : Clock) (s : σ)
    (t : τ) : List (SourceCall σ) :=
  ((r.run source.logged sink clock).runFrom ((s, []), t)).2.1.2

theorem run_agree_logged (r : StreamRequest) (source : RowSource σ) (sink : Sink τ) (clock : Clock)
    (s : σ) (t : τ) :
    Stateful.Agree (fun _ => Stateful.Beside fun s₁ p => s₁ = p.1 ∧ source.Follows s p.2)
      (Stateful.Beside fun s₁ p => s₁ = p.1 ∧ source.Follows s p.2)
      ((r.run source sink clock).runFrom (s, t))
      ((r.run source.logged sink clock).runFrom ((s, []), t)) :=
  run_agree r (source.agree_logged s) sink clock t ⟨rfl, .start, source.follows_nil s⟩

/-- The log of a source changes nothing of a run. -/
theorem runFrom_run_source_logged (r : StreamRequest) (source : RowSource σ) (sink : Sink τ)
    (clock : Clock) (s : σ) (t : τ) :
    (r.run source.logged sink clock).runFrom ((s, []), t) =
      (((r.run source sink clock).runFrom (s, t)).1,
        (((r.run source sink clock).runFrom (s, t)).2.1, r.calls source sink clock s t),
        ((r.run source sink clock).runFrom (s, t)).2.2) := by
  have hagree := r.run_agree_logged source sink clock s t
  obtain ⟨⟨hstate, -⟩, hsink⟩ := hagree.states
  rw [hagree.result_eq, hstate, hsink]
  rfl

theorem follows_calls (r : StreamRequest) (source : RowSource σ) (sink : Sink τ) (clock : Clock)
    (s : σ) (t : τ) : source.Follows s (r.calls source sink clock s t) :=
  (r.run_agree_logged source sink clock s t).states.1.2

theorem row?_of_mem_skip {r : StreamRequest} {source : RowSource σ} {total skipped left : Nat}
    {s : σ} {log : List (SourceCall σ)} {call : SourceCall σ}
    (hlog : ∀ call ∈ log, call.row? = none)
    (hcall : call ∈ ((r.skip source.logged total skipped left).runFrom (s, log)).2.2) :
    call.row? = none := by
  induction left generalizing s skipped log with
  | zero => exact hlog call hcall
  | succ left ih =>
      have hlog' : ∀ call ∈ log ++ [.advance s], call.row? = none := by
        intro call hcall
        obtain hbefore | hlast := List.mem_append.1 hcall
        · exact hlog call hbefore
        · rw [List.mem_singleton.1 hlast]
          rfl
      have hadvance : source.logged.advance.runFrom (s, log) =
          ((source.advance.runFrom s).1, (source.advance.runFrom s).2, log ++ [.advance s]) :=
        SourceCall.runFrom_logging .advance source.advance s log
      unfold skip at hcall
      rcases hmore : source.advance.runFrom s with ⟨report | more, s₁⟩
      · rw [hmore] at hadvance
        rw [Stateful.runFrom_bind_of_error (runFrom_blame_error hadvance)] at hcall
        exact hlog' call hcall
      · rw [hmore] at hadvance
        rw [Stateful.runFrom_bind_of_ok (runFrom_blame_ok hadvance)] at hcall
        cases more with
        | true => exact ih hlog' hcall
        | false => exact hlog' call hcall

end StreamRequest

end RowStream
