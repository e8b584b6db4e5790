import RowStream.Proofs.Stream.Run

/-!
# Streams side by side

Two streams that differ in their sources and in what they pass over. `Stateful.Agree` compares two
runs: they come to the same result, in states that are related. Sources that agree call by call
(`RowSource.Agree`) make streams that agree, up to the batches that the sink is given.
-/

namespace RowStream

namespace Stateful

variable {ε ε' σ σ' τ α β : Type}

/-- Two runs come to the same result: both succeed, in states related by `rel`, or both fail, in
states related by `torn`. -/
inductive Agree (rel : α → σ → σ' → Prop) (torn : σ → σ' → Prop) :
    Except ε α × σ → Except ε α × σ' → Prop
  | ok {a : α} {s : σ} {s' : σ'} (hrel : rel a s s') : Agree rel torn (.ok a, s) (.ok a, s')
  | error {e : ε} {s : σ} {s' : σ'} (htorn : torn s s') :
      Agree rel torn (.error e, s) (.error e, s')

/-- States of two computations that hand over to the same third one. -/
def Beside (rel : σ → σ' → Prop) (p : σ × τ) (q : σ' × τ) : Prop := rel p.1 q.1 ∧ p.2 = q.2

variable {rel : α → σ → σ' → Prop} {torn : σ → σ' → Prop} {s : σ} {s' : σ'}

namespace Agree

theorem result_eq {p : Except ε α × σ} {q : Except ε α × σ'} (h : Agree rel torn p q) :
    p.1 = q.1 := by
  cases h <;> rfl

theorem states {p : Except ε α × σ} {q : Except ε α × σ'}
    (h : Agree (fun _ => torn) torn p q) : torn p.2 q.2 := by
  cases h with
  | ok hrel => exact hrel
  | error htorn => exact htorn

theorem bind {x : Stateful ε σ α} {y : Stateful ε σ' α} {f : α → Stateful ε σ β}
    {g : α → Stateful ε σ' β} {rel' : β → σ → σ' → Prop}
    (h : Agree rel torn (x.runFrom s) (y.runFrom s'))
    (hnext : ∀ a s₁ s₁', rel a s₁ s₁' →
      Agree rel' torn ((f a).runFrom s₁) ((g a).runFrom s₁')) :
    Agree rel' torn ((x >>= f).runFrom s) ((y >>= g).runFrom s') := by
  generalize hx : x.runFrom s = p at h
  generalize hy : y.runFrom s' = q at h
  cases h with
  | ok hrel =>
      rw [runFrom_bind_of_ok hx, runFrom_bind_of_ok hy]
      exact hnext _ _ _ hrel
  | error htorn =>
      rw [runFrom_bind_of_error hx, runFrom_bind_of_error hy]
      exact .error htorn

theorem mapError {f : ε → ε'} {x : Stateful ε σ α} {y : Stateful ε σ' α}
    (h : Agree rel torn (x.runFrom s) (y.runFrom s')) :
    Agree rel torn ((x.mapError f).runFrom s) ((y.mapError f).runFrom s') := by
  rw [runFrom_mapError, runFrom_mapError]
  generalize x.runFrom s = p at h
  generalize y.runFrom s' = q at h
  cases h with
  | ok hrel => exact .ok hrel
  | error htorn => exact .error htorn

theorem onFirst {x : Stateful ε σ α} {y : Stateful ε σ' α} {t : τ}
    (h : Agree rel torn (x.runFrom s) (y.runFrom s')) :
    Agree (fun a => Beside (rel a)) (Beside torn) ((Stateful.onFirst x).runFrom (s, t))
      ((Stateful.onFirst y).runFrom (s', t)) := by
  rw [runFrom_onFirst, runFrom_onFirst]
  generalize x.runFrom s = p at h
  generalize y.runFrom s' = q at h
  cases h with
  | ok hrel => exact .ok ⟨hrel, rfl⟩
  | error htorn => exact .error ⟨htorn, rfl⟩

end Agree

theorem agree_of_result {x : Stateful ε σ α} {y : Stateful ε σ' α} {result : Except ε α} {s₁ : σ}
    {s₁' : σ'} (hx : x.runFrom s = (result, s₁)) (hy : y.runFrom s' = (result, s₁'))
    (hrel : ∀ a, result = .ok a → rel a s₁ s₁') (htorn : torn s₁ s₁') :
    Agree rel torn (x.runFrom s) (y.runFrom s') := by
  rw [hx, hy]
  cases result with
  | ok a => exact .ok (hrel a rfl)
  | error e => exact .error htorn

theorem agree_ofExcept {x : Except ε α} (hrel : ∀ a, x = .ok a → rel a s s') (htorn : torn s s') :
    Agree rel torn ((ofExcept x).runFrom s) ((ofExcept x).runFrom s') :=
  agree_of_result (runFrom_ofExcept x s) (runFrom_ofExcept x s') hrel htorn

/-- What is done with the sink is the same beside either source. -/
theorem agree_onSecond (rel : α → σ → σ' → Prop) {x : Stateful ε τ α} {t : τ}
    (hrel : ∀ a t', x.runFrom t = (.ok a, t') → rel a s s') (htorn : torn s s') :
    Agree (fun a => Beside (rel a)) (Beside torn)
      ((onSecond x : Stateful ε (σ × τ) α).runFrom (s, t))
      ((onSecond x : Stateful ε (σ' × τ) α).runFrom (s', t)) :=
  agree_of_result (runFrom_onSecond x s t) (runFrom_onSecond x s' t)
    (fun a ha => ⟨hrel a _ (Prod.ext ha rfl), rfl⟩) ⟨htorn, rfl⟩

end Stateful

variable [Zone.Catalogue] {σ σ' τ : Type}

/-- Two sources answer alike. `rel n` relates states in which `n` rows have been found, the last of
which is the current one; to the first source the numbers of the rows are greater by `shift`. States
after the last row or a failure are related by `torn`. -/
structure RowSource.Agree (source : RowSource σ) (other : RowSource σ') (shift : Nat)
    (rel : Nat → σ → σ' → Prop) (torn : σ → σ' → Prop) : Prop where
  advance : ∀ {n s s'}, rel n s s' →
    Stateful.Agree (fun more => if more then rel (n + 1) else torn) torn
      (source.advance.runFrom s) (other.advance.runFrom s')
  isNull : ∀ {n s s'} (index : Nat) (c : Column), rel (n + 1) s s' →
    Stateful.Agree (fun _ => rel (n + 1)) torn ((source.isNull (shift + n) index c).runFrom s)
      ((other.isNull n index c).runFrom s')
  read : ∀ {n s s'} (index : Nat) (c : Column), rel (n + 1) s s' →
    Stateful.Agree (fun _ => rel (n + 1)) torn ((source.read (shift + n) index c).runFrom s)
      ((other.read n index c).runFrom s')
  torn : ∀ {n s s'}, rel n s s' → torn s s'

namespace StreamRequest

/-- The request with another offset and another position. -/
def paged (r : StreamRequest) (offset position : Nat) : StreamRequest :=
  { r with params := { r.params with offset := offset, position := position } }

theorem firstRow_add_onRow (r : StreamRequest) :
    r.firstRow + (decide (0 < r.params.position)).toNat = r.skipped := by
  unfold firstRow skipped
  by_cases h : 0 < r.params.position
  · simp only [h, if_true, decide_true, Bool.toNat_true]
    omega
  · simp only [h, if_false, decide_false, Bool.toNat_false, Nat.add_zero]

omit [Zone.Catalogue] in
theorem Progress.rows_settle {sink : Sink τ} {deadline : Option Nat} {clock : Clock} {size : Nat}
    {p p' : Progress} {t t' : τ}
    (h : (p.settle size sink deadline clock).runFrom t = (.ok p', t')) :
    p'.stats.rows = p.stats.rows := by
  unfold Progress.settle at h
  split at h
  · obtain ⟨stats, t₁, hflush, hp⟩ := Stateful.runFrom_bind_ok h
    cases hp
    obtain ⟨t₂, htakes⟩ | ⟨cause, t₂, hrefuses⟩ := sink.takes_or_refuses deadline
      (clock (p.stats.batches + 1)) p.pending t
    · rw [Sink.runFrom_flush_of_takes htakes] at hflush
      cases hflush
      rfl
    · rw [Sink.runFrom_flush_of_refuses hrefuses] at hflush
      cases hflush
  · cases h
    rfl

section Agree

variable {source : RowSource σ} {other : RowSource σ'} {shift : Nat} {rel : Nat → σ → σ' → Prop}
  {torn : σ → σ' → Prop} {n : Nat} {s : σ} {s' : σ'}

theorem cell_agree (r : StreamRequest) (offset position : Nat)
    (h : source.Agree other shift rel torn) (c : ResolvedColumn) (hs : rel (n + 1) s s') :
    Stateful.Agree (fun _ => rel (n + 1)) torn ((r.cell source (shift + n) c).runFrom s)
      (((r.paged offset position).cell other n c).runFrom s') := by
  unfold cell
  cases c.origin with
  | sourceId => exact Stateful.agree_ofExcept (fun _ _ => hs) (h.torn hs)
  | custom constant => exact Stateful.agree_ofExcept (fun _ _ => hs) (h.torn hs)
  | result index =>
      refine (h.isNull index c.column hs).mapError.bind ?_
      intro null s₁ s₁' hs₁
      cases null with
      | true => exact Stateful.agree_ofExcept (fun _ _ => hs₁) (h.torn hs₁)
      | false =>
          refine (h.read index c.column hs₁).mapError.bind ?_
          intro bytes s₂ s₂' hs₂
          exact .ok hs₂

theorem row_agree (r : StreamRequest) (offset position : Nat)
    (h : source.Agree other shift rel torn) (columns : List ResolvedColumn)
    (hs : rel (n + 1) s s') :
    Stateful.Agree (fun _ => rel (n + 1)) torn ((r.row source (shift + n) columns).runFrom s)
      (((r.paged offset position).row other n columns).runFrom s') := by
  induction columns generalizing s s' with
  | nil => exact .ok hs
  | cons c rest ih =>
      refine (cell_agree r offset position h c hs).bind ?_
      intro bytes s₁ s₁' hs₁
      refine (ih hs₁).bind ?_
      intro more s₂ s₂' hs₂
      exact .ok hs₂

theorem nextRow_agree (r : StreamRequest) (offset position : Nat)
    (h : source.Agree other shift rel torn) (onRow : Bool) (hs : rel (n + onRow.toNat) s s') :
    Stateful.Agree (fun more => if more then rel (n + 1) else torn) torn
      ((r.nextRow source onRow).runFrom s)
      (((r.paged offset position).nextRow other onRow).runFrom s') := by
  cases onRow with
  | true => exact .ok hs
  | false => exact (h.advance hs).mapError

omit [Zone.Catalogue] in
theorem finish_agree (p : Progress) (sink : Sink τ) (deadline : Option Nat) (clock : Clock) (t : τ)
    (hs : torn s s') :
    Stateful.Agree (fun _ => Stateful.Beside torn) (Stateful.Beside torn)
      ((Stateful.onSecond (p.finish sink deadline clock) >>= fun p =>
        (pure p.stats : Stateful Error (σ × τ) Stats)).runFrom (s, t))
      ((Stateful.onSecond (p.finish sink deadline clock) >>= fun p =>
        (pure p.stats : Stateful Error (σ' × τ) Stats)).runFrom (s', t)) := by
  refine (Stateful.agree_onSecond (fun _ => torn) (fun _ _ _ => hs) hs).bind ?_
  intro p' q q' hq
  exact .ok hq

theorem rows_agree (r : StreamRequest) (offset position : Nat)
    (h : source.Agree other shift rel torn)
    (hfirst : r.firstRow = shift + (r.paged offset position).firstRow) (sink : Sink τ)
    (deadline : Option Nat) (clock : Clock) (columns : List ResolvedColumn) (limit : Nat)
    (onRow : Bool) (p : Progress) (t : τ)
    (hs : rel ((r.paged offset position).firstRow + p.stats.rows + onRow.toNat) s s') :
    Stateful.Agree (fun _ => Stateful.Beside torn) (Stateful.Beside torn)
      ((r.rows source sink deadline clock columns limit onRow p).runFrom (s, t))
      (((r.paged offset position).rows other sink deadline clock columns limit onRow p).runFrom
        (s', t)) := by
  -- By induction on the rows that are still allowed. The relation counts the rows found, which the
  -- streams number alike but for the shift; both settle the same progress with the same sink.
  induction limit generalizing onRow p s s' t with
  | zero =>
      rw [StreamRequest.rows.eq_def, StreamRequest.rows.eq_def]
      refine (nextRow_agree r offset position h onRow hs).onFirst.bind ?_
      rintro more ⟨s₁, t₁⟩ ⟨s₁', _⟩ ⟨hs₁, rfl⟩
      cases more with
      | false => exact finish_agree p sink deadline clock t₁ hs₁
      | true => exact .error ⟨h.torn hs₁, rfl⟩
  | succ limit ih =>
      rw [StreamRequest.rows.eq_def, StreamRequest.rows.eq_def]
      refine (nextRow_agree r offset position h onRow hs).onFirst.bind ?_
      rintro more ⟨s₁, t₁⟩ ⟨s₁', _⟩ ⟨hs₁, rfl⟩
      cases more with
      | false => exact finish_agree p sink deadline clock t₁ hs₁
      | true =>
          have hrow := row_agree r offset position h columns hs₁
          rw [← Nat.add_assoc, ← hfirst] at hrow
          refine hrow.onFirst.bind ?_
          rintro bytes ⟨s₂, t₂⟩ ⟨s₂', _⟩ ⟨hs₂, rfl⟩
          refine (Stateful.agree_onSecond (fun p' => rel
            ((r.paged offset position).firstRow + p'.stats.rows)) ?_ (h.torn hs₂)).bind ?_
          · intro p' t' hsettle
            rw [Progress.rows_settle hsettle]
            exact hs₂
          · rintro p' ⟨s₃, t₃⟩ ⟨s₃', _⟩ ⟨hs₃, rfl⟩
            exact ih false p' t₃ hs₃

theorem skip_agree (r : StreamRequest) (h : source.Agree other shift rel torn) (total : Nat)
    (left : Nat) (hs : rel n s s') :
    Stateful.Agree (fun _ => rel (n + left)) torn ((r.skip source total n left).runFrom s)
      ((r.skip other total n left).runFrom s') := by
  induction left generalizing n s s' with
  | zero => exact .ok hs
  | succ left ih =>
      unfold skip
      refine (h.advance hs).mapError.bind ?_
      intro more s₁ s₁' hs₁
      cases more with
      | true =>
          rw [← Nat.add_assoc, Nat.add_right_comm]
          exact ih hs₁
      | false => exact .error hs₁

/-- Streams of one request over sources that agree from the first row on. -/
theorem run_agree (r : StreamRequest) (h : source.Agree other 0 rel torn) (sink : Sink τ)
    (clock : Clock) (t : τ) (hs : rel 0 s s') :
    Stateful.Agree (fun _ => Stateful.Beside torn) (Stateful.Beside torn)
      ((r.run source sink clock).runFrom (s, t)) ((r.run other sink clock).runFrom (s', t)) := by
  cases hresolve : r.resolve with
  | error e =>
      rw [runFrom_run_of_resolve_error hresolve, runFrom_run_of_resolve_error hresolve]
      exact .error ⟨h.torn hs, rfl⟩
  | ok columns =>
      rw [runFrom_run_of_resolve_ok hresolve, runFrom_run_of_resolve_ok hresolve]
      refine (skip_agree r h r.skipped r.skipped hs).onFirst.bind ?_
      rintro _ ⟨s₁, t₁⟩ ⟨s₁', _⟩ ⟨hs₁, rfl⟩
      rw [Nat.zero_add, ← firstRow_add_onRow] at hs₁
      exact rows_agree r r.params.offset r.params.position h (Nat.zero_add _).symm sink _ clock
        columns maxRows _ {} t₁ hs₁

end Agree

end StreamRequest

end RowStream
