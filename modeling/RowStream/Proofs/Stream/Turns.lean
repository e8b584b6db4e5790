import RowStream.Proofs.Stream.Calls

/-!
# The protocol of sources

In which order the calls on a source may stand. `RowSource.Obeys` says it of the calls alone: what
stands between two advances, which number a call for a cell names, and behind which calls there is
no other. A stream makes its calls in turns, one advance each and behind it the calls for the cells
of the row that it finds, unless this row is passed over (`Turns`); what follows is at most one turn
that is cut short (`LastTurn`). Calls in turns obey the protocol (`Turns.obeys`).
-/

namespace RowStream

variable {σ τ : Type}

theorem split_of_append_eq {α : Type} {xs ys before after : List α} {a : α}
    (h : xs ++ ys = before ++ a :: after) :
    (∃ rest, xs = before ++ a :: rest ∧ after = rest ++ ys) ∨
      ∃ rest, before = xs ++ rest ∧ ys = rest ++ a :: after := by
  obtain ⟨rest, hbefore, hys⟩ | ⟨rest, hxs, hafter⟩ := List.append_eq_append_iff.1 h
  · exact .inr ⟨rest, hbefore, hys⟩
  · cases rest with
    | nil => exact .inr ⟨[], by rw [hxs, List.append_nil, List.append_nil], hafter.symm⟩
    | cons b rest =>
        cases hafter
        exact .inl ⟨rest, hxs, rfl⟩

namespace RowSource

variable [Zone.Catalogue]

def moves (source : RowSource σ) : SourceCall σ → Bool
  | .advance s =>
    match (source.advance.runFrom s).1 with
    | .ok more => more
    | .error _ => false
  | .isNull _ _ _ _ => false
  | .read _ _ _ _ => false

/-- How many rows calls have found: the number of advances that answered true. -/
def found (source : RowSource σ) (calls : List (SourceCall σ)) : Nat := calls.countP source.moves

/-- A call that finds no next row, or that fails. -/
def Stops (source : RowSource σ) : SourceCall σ → Prop
  | .advance s => (source.advance.runFrom s).1 ≠ .ok true
  | .isNull s row index c => ∃ report, ((source.isNull row index c).runFrom s).1 = .error report
  | .read s row index c => ∃ report, ((source.read row index c).runFrom s).1 = .error report

/-- Calls for cells of a row, given by place and column: for each whether it is null, and for its
bytes when it is not. Every call finds the state that the call before has left. -/
inductive AsksCells (source : RowSource σ) (row : Nat) :
    List (Nat × Column) → σ → List (SourceCall σ) → σ → Prop
  | nil (s : σ) : source.AsksCells row [] s [] s
  | null {index : Nat} {c : Column} {cells : List (Nat × Column)} {s s₁ s₂ : σ}
      {calls : List (SourceCall σ)}
      (hnull : (source.isNull row index c).runFrom s = (.ok true, s₁))
      (hrest : source.AsksCells row cells s₁ calls s₂) :
      source.AsksCells row ((index, c) :: cells) s (.isNull s row index c :: calls) s₂
  | value {index : Nat} {c : Column} {cells : List (Nat × Column)} {bytes : List UInt8}
      {s s₁ s₂ s₃ : σ} {calls : List (SourceCall σ)}
      (hnull : (source.isNull row index c).runFrom s = (.ok false, s₁))
      (hread : (source.read row index c).runFrom s₁ = (.ok bytes, s₂))
      (hrest : source.AsksCells row cells s₂ calls s₃) :
      source.AsksCells row ((index, c) :: cells) s
        (.isNull s row index c :: .read s₁ row index c :: calls) s₃

/-- Calls for the first cells of a row, of which the last may fail. -/
inductive StartsCells (source : RowSource σ) (row : Nat) :
    List (Nat × Column) → σ → List (SourceCall σ) → Prop
  | nil (cells : List (Nat × Column)) (s : σ) : source.StartsCells row cells s []
  | isNull {index : Nat} {c : Column} {s : σ} {report : Report} (cells : List (Nat × Column))
      (hnull : ((source.isNull row index c).runFrom s).1 = .error report) :
      source.StartsCells row ((index, c) :: cells) s [.isNull s row index c]
  | read {index : Nat} {c : Column} {s s₁ : σ} {report : Report} (cells : List (Nat × Column))
      (hnull : (source.isNull row index c).runFrom s = (.ok false, s₁))
      (hread : ((source.read row index c).runFrom s₁).1 = .error report) :
      source.StartsCells row ((index, c) :: cells) s [.isNull s row index c, .read s₁ row index c]
  | more {cells more : List (Nat × Column)} {s s₁ : σ} {calls rest : List (SourceCall σ)}
      (hcells : source.AsksCells row cells s calls s₁)
      (hrest : source.StartsCells row more s₁ rest) :
      source.StartsCells row (cells ++ more) s (calls ++ rest)

/-- What the protocol of sources says of the calls of a stream that passes over the rows before
`first` and reads `cells` of every other row. -/
structure Obeys (source : RowSource σ) (first : Nat) (cells : List (Nat × Column))
    (calls : List (SourceCall σ)) : Prop where
  /-- No call follows one that finds no next row or fails. -/
  last : ∀ before call after, calls = before ++ call :: after → source.Stops call → after = []
  /-- A call for a cell names the number of the row found last, counted from zero. This row is not
  passed over. -/
  numbered : ∀ before call after row, calls = before ++ call :: after → call.row? = some row →
    source.found before = row + 1 ∧ first ≤ row
  /-- Between two advances a row is passed over, or all of its cells are asked for. -/
  between : ∀ before s asked s' after,
    calls = before ++ .advance s :: asked ++ .advance s' :: after →
    (∀ call ∈ asked, call.row? ≠ none) →
      ∃ s₁, source.advance.runFrom s = (.ok true, s₁) ∧
        if source.found before < first then asked = [] ∧ s' = s₁
        else source.AsksCells (source.found before) cells s₁ asked s'
  /-- Behind the last advance the cells of a row are asked for as far as the stream gets. -/
  behind : ∀ before s asked, calls = before ++ .advance s :: asked → asked ≠ [] →
    (∀ call ∈ asked, call.row? ≠ none) →
      ∃ s₁, source.advance.runFrom s = (.ok true, s₁) ∧ first ≤ source.found before ∧
        source.StartsCells (source.found before) cells s₁ asked

variable {source : RowSource σ} {row : Nat} {cells more : List (Nat × Column)} {s s₁ s₂ : σ}
  {calls asked : List (SourceCall σ)} {call : SourceCall σ}

/-! ### The calls for a row -/

theorem AsksCells.append {rest : List (SourceCall σ)} (h : source.AsksCells row cells s calls s₁)
    (hmore : source.AsksCells row more s₁ rest s₂) :
    source.AsksCells row (cells ++ more) s (calls ++ rest) s₂ := by
  induction h with
  | nil => exact hmore
  | null hnull _ ih => exact .null hnull (ih hmore)
  | value hnull hread _ ih => exact .value hnull hread (ih hmore)

theorem AsksCells.starts (h : source.AsksCells row cells s calls s₁) :
    source.StartsCells row cells s calls := by
  have hall := StartsCells.more h (.nil [] s₁)
  rwa [List.append_nil, List.append_nil] at hall

theorem AsksCells.of_mem (h : source.AsksCells row cells s calls s₁) (hcall : call ∈ calls) :
    call.row? = some row ∧ ¬source.Stops call := by
  induction h with
  | nil => cases hcall
  | @null index c cells s s₁ s₂ calls hnull _ ih =>
      obtain rfl | hcall := List.mem_cons.1 hcall
      · refine ⟨rfl, ?_⟩
        rintro ⟨report, herror⟩
        rw [hnull] at herror
        cases herror
      · exact ih hcall
  | @value index c cells bytes s s₁ s₂ s₃ calls hnull hread _ ih =>
      obtain rfl | hcall := List.mem_cons.1 hcall
      · refine ⟨rfl, ?_⟩
        rintro ⟨report, herror⟩
        rw [hnull] at herror
        cases herror
      · obtain rfl | hcall := List.mem_cons.1 hcall
        · refine ⟨rfl, ?_⟩
          rintro ⟨report, herror⟩
          rw [hread] at herror
          cases herror
        · exact ih hcall

theorem AsksCells.row?_ne_none (h : source.AsksCells row cells s calls s₁) :
    ∀ call ∈ calls, call.row? ≠ none := by
  intro call hcall
  rw [(h.of_mem hcall).1]
  exact Option.some_ne_none row

theorem StartsCells.row?_of_mem (h : source.StartsCells row cells s calls) (hcall : call ∈ calls) :
    call.row? = some row := by
  induction h with
  | nil => cases hcall
  | isNull => rw [List.mem_singleton.1 hcall]; rfl
  | read =>
      obtain rfl | hcall := List.mem_cons.1 hcall
      · rfl
      · rw [List.mem_singleton.1 hcall]; rfl
  | more hcells hrest ih =>
      obtain hcall | hcall := List.mem_append.1 hcall
      · exact (hcells.of_mem hcall).1
      · exact ih hcall

theorem StartsCells.row?_ne_none (h : source.StartsCells row cells s calls) :
    ∀ call ∈ calls, call.row? ≠ none := by
  intro call hcall
  rw [h.row?_of_mem hcall]
  exact Option.some_ne_none row

theorem StartsCells.last {before after : List (SourceCall σ)}
    (h : source.StartsCells row cells s calls) (hcalls : calls = before ++ call :: after)
    (hstops : source.Stops call) : after = [] := by
  induction h generalizing before with
  | nil => simp at hcalls
  | isNull =>
      obtain ⟨-, h⟩ | ⟨-, h⟩ := List.singleton_eq_append_iff.1 hcalls
      · exact (List.cons_eq_cons.1 h).2
      · cases h
  | @read index c s s₁ report cells hnull hread =>
      cases before with
      | nil =>
          obtain ⟨report', herror⟩ : source.Stops (.isNull s row index c) := by
            cases hcalls
            exact hstops
          rw [hnull] at herror
          cases herror
      | cons first before => cases before <;> simp_all
  | more hcells hrest ih =>
      obtain ⟨rest, rfl, -⟩ | ⟨rest, rfl, hsplit⟩ := split_of_append_eq hcalls
      · exact absurd hstops (hcells.of_mem (by simp)).2
      · exact ih hsplit

/-! ### Turns -/

/-- Whole turns of a stream, and the state that they leave: so many rows have been found, each of
which is passed over or read. -/
inductive Turns (source : RowSource σ) (first : Nat) (cells : List (Nat × Column)) (s : σ) :
    Nat → List (SourceCall σ) → σ → Prop
  | start : source.Turns first cells s 0 [] s
  | passes {n : Nat} {s₁ s₂ : σ} {calls : List (SourceCall σ)}
      (hbefore : source.Turns first cells s n calls s₁)
      (hadvance : source.advance.runFrom s₁ = (.ok true, s₂)) (hpassed : n < first) :
      source.Turns first cells s (n + 1) (calls ++ [.advance s₁]) s₂
  | reads {n : Nat} {s₁ s₂ s₃ : σ} {calls asked : List (SourceCall σ)}
      (hbefore : source.Turns first cells s n calls s₁)
      (hadvance : source.advance.runFrom s₁ = (.ok true, s₂)) (hread : first ≤ n)
      (hcells : source.AsksCells n cells s₂ asked s₃) :
      source.Turns first cells s (n + 1) (calls ++ .advance s₁ :: asked) s₃

/-- What follows behind whole turns that have found so many rows. -/
inductive LastTurn (source : RowSource σ) (first : Nat) (cells : List (Nat × Column)) (n : Nat)
    (s : σ) : List (SourceCall σ) → Prop
  | nil : source.LastTurn first cells n s []
  | stops (hstops : source.Stops (.advance s)) : source.LastTurn first cells n s [.advance s]
  | starts {s₁ : σ} {asked : List (SourceCall σ)}
      (hadvance : source.advance.runFrom s = (.ok true, s₁)) (hread : first ≤ n)
      (hcells : source.StartsCells n cells s₁ asked) :
      source.LastTurn first cells n s (.advance s :: asked)

variable {first n : Nat}

theorem moves_advance (h : source.advance.runFrom s = (.ok true, s₁)) :
    source.moves (.advance s) = true := by
  simp only [moves, h]

theorem not_stops_advance (h : source.advance.runFrom s = (.ok true, s₁)) :
    ¬source.Stops (.advance s) := by
  simp [Stops, h]

theorem found_eq_zero (h : ∀ call ∈ calls, call.row? ≠ none) : source.found calls = 0 := by
  rw [found, List.countP_eq_zero]
  intro call hcall
  cases call with
  | advance => exact absurd rfl (h _ hcall)
  | isNull | read => exact Bool.false_ne_true

theorem found_append (source : RowSource σ) (calls rest : List (SourceCall σ)) :
    source.found (calls ++ rest) = source.found calls + source.found rest :=
  List.countP_append

theorem found_turn (hadvance : source.advance.runFrom s = (.ok true, s₁))
    (hasked : ∀ call ∈ asked, call.row? ≠ none) : source.found (.advance s :: asked) = 1 := by
  have hnone : source.found asked = 0 := found_eq_zero hasked
  rw [found, List.countP_cons_of_pos (moves_advance hadvance)]
  rw [found] at hnone
  omega

theorem Turns.found_eq (h : source.Turns first cells s n calls s₁) : source.found calls = n := by
  induction h with
  | start => rfl
  | passes _ hadvance _ ih => rw [found_append, ih, found_turn hadvance (by simp)]
  | reads _ hadvance _ hcells ih =>
      rw [found_append, ih, found_turn hadvance hcells.row?_ne_none]

theorem Turns.not_stops (h : source.Turns first cells s n calls s₁) (hcall : call ∈ calls) :
    ¬source.Stops call := by
  induction h with
  | start => cases hcall
  | passes _ hadvance _ ih =>
      obtain hcall | hcall := List.mem_append.1 hcall
      · exact ih hcall
      · rw [List.mem_singleton.1 hcall]
        exact not_stops_advance hadvance
  | reads _ hadvance _ hcells ih =>
      obtain hcall | hcall := List.mem_append.1 hcall
      · exact ih hcall
      · obtain rfl | hcall := List.mem_cons.1 hcall
        · exact not_stops_advance hadvance
        · exact (hcells.of_mem hcall).2

section Splits

variable {before after : List (SourceCall σ)}

theorem eq_of_turn_eq (hasked : ∀ call ∈ asked, call.row? ≠ none)
    (h : .advance s :: asked = before ++ .advance s₁ :: after) :
    before = [] ∧ s = s₁ ∧ asked = after := by
  cases before with
  | nil =>
      cases h
      exact ⟨rfl, rfl, rfl⟩
  | cons call before =>
      cases h
      exact absurd rfl (hasked (.advance s₁) (by simp))

theorem eq_of_append_turn_eq {asked' : List (SourceCall σ)}
    (hasked : ∀ call ∈ asked, call.row? ≠ none) (hasked' : ∀ call ∈ asked', call.row? ≠ none)
    (h : calls ++ .advance s :: asked = before ++ .advance s₁ :: asked') :
    calls = before ∧ s = s₁ ∧ asked = asked' := by
  obtain ⟨rest, -, rfl⟩ | ⟨rest, rfl, hturn⟩ := split_of_append_eq h
  · exact absurd rfl (hasked' (.advance s) (by simp))
  · obtain ⟨rfl, hs, hcalls⟩ := eq_of_turn_eq hasked hturn
    exact ⟨(List.append_nil _).symm, hs, hcalls⟩

theorem numbered_turn {number : Nat} (hadvance : source.advance.runFrom s = (.ok true, s₁))
    (hasked : ∀ call ∈ asked, call.row? = some row)
    (h : .advance s :: asked = before ++ call :: after) (hrow : call.row? = some number) :
    source.found before = 1 ∧ number = row := by
  cases before with
  | nil =>
      cases h
      cases hrow
  | cons first before =>
      cases h
      rw [hasked call (by simp)] at hrow
      cases hrow
      refine ⟨found_turn hadvance ?_, rfl⟩
      intro other hother
      rw [hasked other (by simp [hother])]
      exact Option.some_ne_none row

theorem Turns.numbered {number : Nat} (h : source.Turns first cells s n calls s₁)
    (hcalls : calls = before ++ call :: after) (hrow : call.row? = some number) :
    source.found before = number + 1 ∧ first ≤ number := by
  induction h generalizing after with
  | start => simp at hcalls
  | passes _ _ _ ih =>
      obtain ⟨rest, hsplit, -⟩ | ⟨rest, -, hturn⟩ := split_of_append_eq hcalls
      · exact ih hsplit
      · obtain ⟨-, hcall⟩ | ⟨-, hcall⟩ := List.singleton_eq_append_iff.1 hturn
        · cases hcall
          cases hrow
        · cases hcall
  | reads hbefore hadvance hread hcells ih =>
      obtain ⟨rest, hsplit, -⟩ | ⟨rest, rfl, hturn⟩ := split_of_append_eq hcalls
      · exact ih hsplit
      · obtain ⟨hfound, rfl⟩ :=
          numbered_turn hadvance (fun call hcall => (hcells.of_mem hcall).1) hturn hrow
        rw [found_append, hbefore.found_eq, hfound]
        exact ⟨rfl, hread⟩

theorem Turns.before_advance (h : source.Turns first cells s n calls s₁)
    (hcalls : calls = before ++ .advance s₂ :: after) :
    ∃ k, source.Turns first cells s k before s₂ := by
  induction h generalizing after with
  | start => simp at hcalls
  | passes hbefore _ _ ih =>
      obtain ⟨rest, hsplit, -⟩ | ⟨rest, rfl, hturn⟩ := split_of_append_eq hcalls
      · exact ih hsplit
      · obtain ⟨rfl, rfl, -⟩ := eq_of_turn_eq (by simp) hturn
        rw [List.append_nil]
        exact ⟨_, hbefore⟩
  | reads hbefore _ _ hcells ih =>
      obtain ⟨rest, hsplit, -⟩ | ⟨rest, rfl, hturn⟩ := split_of_append_eq hcalls
      · exact ih hsplit
      · obtain ⟨rfl, rfl, -⟩ := eq_of_turn_eq hcells.row?_ne_none hturn
        rw [List.append_nil]
        exact ⟨_, hbefore⟩

theorem Turns.last_turn (h : source.Turns first cells s n calls s₁)
    (hcalls : calls = before ++ .advance s₂ :: asked)
    (hasked : ∀ call ∈ asked, call.row? ≠ none) :
    ∃ s₃, source.advance.runFrom s₂ = (.ok true, s₃) ∧
      if source.found before < first then asked = [] ∧ s₁ = s₃
      else source.AsksCells (source.found before) cells s₃ asked s₁ := by
  cases h with
  | start => simp at hcalls
  | passes hbefore hadvance hpassed =>
      obtain ⟨rfl, rfl, rfl⟩ := eq_of_append_turn_eq (by simp) hasked hcalls
      refine ⟨_, hadvance, ?_⟩
      rw [hbefore.found_eq, if_pos hpassed]
      exact ⟨rfl, rfl⟩
  | reads hbefore hadvance hread hcells =>
      obtain ⟨rfl, rfl, rfl⟩ := eq_of_append_turn_eq hcells.row?_ne_none hasked hcalls
      refine ⟨_, hadvance, ?_⟩
      rw [hbefore.found_eq, if_neg (Nat.not_lt.2 hread)]
      exact hcells

end Splits

/-- What a stream does in turns obeys the protocol. -/
theorem Turns.obeys {rest : List (SourceCall σ)} (h : source.Turns first cells s n calls s₁)
    (hrest : source.LastTurn first cells n s₁ rest) :
    source.Obeys first cells (calls ++ rest) where
  last := by
    intro before call after hcalls hstops
    obtain ⟨_, rfl, -⟩ | ⟨between, rfl, hturn⟩ := split_of_append_eq hcalls
    · exact absurd hstops (h.not_stops (by simp))
    · cases hrest with
      | nil => simp at hturn
      | stops =>
          obtain ⟨-, hcall⟩ | ⟨-, hcall⟩ := List.singleton_eq_append_iff.1 hturn
          · exact (List.cons_eq_cons.1 hcall).2
          · cases hcall
      | starts hadvance _ hcells =>
          cases between with
          | nil =>
              cases hturn
              exact absurd hstops (not_stops_advance hadvance)
          | cons _ between =>
              cases hturn
              exact hcells.last rfl hstops
  numbered := by
    intro before call after row hcalls hrow
    obtain ⟨_, hsplit, -⟩ | ⟨between, rfl, hturn⟩ := split_of_append_eq hcalls
    · exact h.numbered hsplit hrow
    · cases hrest with
      | nil => simp at hturn
      | stops =>
          obtain ⟨-, hcall⟩ | ⟨-, hcall⟩ := List.singleton_eq_append_iff.1 hturn
          · cases hcall
            cases hrow
          · cases hcall
      | starts hadvance hread hcells =>
          obtain ⟨hfound, rfl⟩ :=
            numbered_turn hadvance (fun call hcall => hcells.row?_of_mem hcall) hturn hrow
          rw [found_append, h.found_eq, hfound]
          exact ⟨rfl, hread⟩
  between := by
    intro before s₂ asked s' after hcalls hasked
    have hwhole : ∃ k, source.Turns first cells s k (before ++ .advance s₂ :: asked) s' := by
      obtain ⟨_, hsplit, -⟩ | ⟨between, hbefore, hturn⟩ := split_of_append_eq hcalls
      · exact h.before_advance hsplit
      · cases hrest with
        | nil => simp at hturn
        | stops =>
            obtain ⟨rfl, rfl, -⟩ := eq_of_turn_eq (by simp) hturn
            rw [hbefore, List.append_nil]
            exact ⟨n, h⟩
        | starts _ _ hcells =>
            obtain ⟨rfl, rfl, -⟩ := eq_of_turn_eq hcells.row?_ne_none hturn
            rw [hbefore, List.append_nil]
            exact ⟨n, h⟩
    obtain ⟨k, hturns⟩ := hwhole
    exact hturns.last_turn rfl hasked
  behind := by
    intro before s₂ asked hcalls hsome hasked
    cases hrest with
    | nil =>
        rw [List.append_nil] at hcalls
        obtain ⟨s₃, hadvance, hturn⟩ := h.last_turn hcalls hasked
        split at hturn
        · exact absurd hturn.1 hsome
        · next hread => exact ⟨s₃, hadvance, Nat.not_lt.1 hread, hturn.starts⟩
    | stops =>
        obtain ⟨-, -, hnone⟩ := eq_of_append_turn_eq (by simp) hasked hcalls
        exact absurd hnone.symm hsome
    | starts hadvance hread hcells =>
        obtain ⟨rfl, rfl, rfl⟩ := eq_of_append_turn_eq hcells.row?_ne_none hasked hcalls
        rw [h.found_eq]
        exact ⟨_, hadvance, hread, hcells⟩

end RowSource

end RowStream
