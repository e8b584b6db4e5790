import RowStream.Proofs.Stream.Calls
import RowStream.Proofs.Stream.Deliveries

/-!
# Paging

What an offset and a position make of a stream. Over a source of rows whose cells depend on the
current row alone, an offset streams the rest of the rows as if there were no others, and a position
is an offset that counts from 1, although it leaves the source on the first row of the stream and
not before it. What a call says about the number of a row is its place among all rows, however many
are passed over.
-/

namespace RowStream

section Zones

variable [Zone.Catalogue]

/-- What the cells of rows hold, by their place and the column that they are read for. -/
structure RowCells (ρ : Type) where
  isNull : ρ → Nat → Column → Except Report Bool
  read : ρ → Nat → Column → Except Report (List UInt8)

variable {σ σ' τ ρ : Type}

/-- A source of rows, one after the other, whose cells depend on the current row alone. In the
states `stands n` it has found `n` rows, the last of which is the current one; a call that fails may
leave any state. -/
structure RowSource.Lists (source : RowSource σ) (cells : RowCells ρ) (rows : List ρ)
    (stands : Nat → σ → Prop) : Prop where
  le : ∀ {n s}, stands n s → n ≤ rows.length
  advance : ∀ {n s}, stands n s → n < rows.length →
    ∃ s', source.advance.runFrom s = (.ok true, s') ∧ stands (n + 1) s'
  ends : ∀ {s}, stands rows.length s → ∃ s', source.advance.runFrom s = (.ok false, s')
  isNull : ∀ {n s row} (number index : Nat) (c : Column), stands (n + 1) s → rows[n]? = some row →
    ∃ s', (source.isNull number index c).runFrom s = (cells.isNull row index c, s') ∧
      ∀ null, cells.isNull row index c = .ok null → stands (n + 1) s'
  read : ∀ {n s row} (number index : Nat) (c : Column), stands (n + 1) s → rows[n]? = some row →
    ∃ s', (source.read number index c).runFrom s = (cells.read row index c, s') ∧
      ∀ bytes, cells.read row index c = .ok bytes → stands (n + 1) s'

theorem RowSource.Advances.snoc {source : RowSource σ} {n : Nat} {s s₁ s₂ : σ}
    (h : source.Advances n s s₁) (hadvance : source.advance.runFrom s₁ = (.ok true, s₂)) :
    source.Advances (n + 1) s s₂ := by
  induction h with
  | zero => exact .succ hadvance (.zero _)
  | succ hfirst hrest ih => exact .succ hfirst (ih hadvance)

theorem RowSource.agree_refl (source : RowSource σ) : source.Agree source 0 (fun _ => Eq) Eq where
  advance := by
    rintro n s _ rfl
    rcases source.advance.runFrom s with ⟨report | more, s₁⟩
    · exact .error rfl
    · cases more with
      | true => exact .ok rfl
      | false => exact .ok rfl
  isNull := by
    rintro n s _ index c rfl
    rw [Nat.zero_add]
    exact Stateful.agree_of_result rfl rfl (fun _ _ => rfl) rfl
  read := by
    rintro n s _ index c rfl
    rw [Nat.zero_add]
    exact Stateful.agree_of_result rfl rfl (fun _ _ => rfl) rfl
  torn := fun h => h

namespace RowSource.Lists

variable {source : RowSource σ} {other : RowSource σ'} {cells : RowCells ρ} {rows : List ρ}
  {stands : Nat → σ → Prop} {stands' : Nat → σ' → Prop} {n k : Nat} {s s₁ : σ}

theorem exists_current (h : source.Lists cells rows stands) (hs : stands (n + 1) s) :
    ∃ row, rows[n]? = some row :=
  ⟨rows.get ⟨n, h.le hs⟩, List.getElem?_eq_getElem (h.le hs)⟩

theorem advances (h : source.Lists cells rows stands) (hs : stands n s)
    (hk : n + k ≤ rows.length) : ∃ s₀, source.Advances k s s₀ ∧ stands (n + k) s₀ := by
  induction k with
  | zero => exact ⟨s, .zero s, hs⟩
  | succ k ih =>
      obtain ⟨s₁, hadvances, hs₁⟩ := ih (by omega)
      obtain ⟨s₂, hadvance, hs₂⟩ := h.advance hs₁ (by omega)
      exact ⟨s₂, hadvances.snoc hadvance, hs₂⟩

theorem stands_of_reaches (h : source.Lists cells rows stands) (hs : stands 0 s)
    (hreaches : source.Reaches s n s₁) : stands n s₁ := by
  induction hreaches with
  | start => exact hs
  | @advance n s₁ s₂ hbefore hadvance ih =>
      obtain hlt | heq := Nat.lt_or_eq_of_le (h.le ih)
      · obtain ⟨s₃, hadvance', hs₃⟩ := h.advance ih hlt
        rw [hadvance'] at hadvance
        cases hadvance
        exact hs₃
      · rw [heq] at ih
        obtain ⟨s₃, hadvance'⟩ := h.ends ih
        rw [hadvance'] at hadvance
        cases hadvance
  | @isNull n number index c null s₁ s₂ hbefore hnull ih =>
      obtain ⟨row, hrow⟩ := h.exists_current ih
      obtain ⟨s₃, hnull', hs₃⟩ := h.isNull number index c ih hrow
      rw [hnull'] at hnull
      cases congrArg Prod.snd hnull
      exact hs₃ null (congrArg Prod.fst hnull)
  | @read n number index c bytes s₁ s₂ hbefore hread ih =>
      obtain ⟨row, hrow⟩ := h.exists_current ih
      obtain ⟨s₃, hread', hs₃⟩ := h.read number index c ih hrow
      rw [hread'] at hread
      cases congrArg Prod.snd hread
      exact hs₃ bytes (congrArg Prod.fst hread)

theorem agree_drop (h : source.Lists cells rows stands)
    (hother : other.Lists cells (rows.drop k) stands') (hk : k ≤ rows.length) :
    source.Agree other k (fun n s s' => stands (k + n) s ∧ stands' n s') (fun _ _ => True) where
  advance := by
    rintro n s s' ⟨hs, hs'⟩
    have hlength : (rows.drop k).length = rows.length - k := List.length_drop
    obtain hlt | heq := Nat.lt_or_eq_of_le (h.le hs)
    · obtain ⟨s₁, hadvance, hs₁⟩ := h.advance hs hlt
      obtain ⟨s₁', hadvance', hs₁'⟩ := hother.advance hs' (by omega)
      rw [hadvance, hadvance']
      exact .ok ⟨hs₁, hs₁'⟩
    · rw [heq] at hs
      rw [show n = (rows.drop k).length by omega] at hs'
      obtain ⟨s₁, hadvance⟩ := h.ends hs
      obtain ⟨s₁', hadvance'⟩ := hother.ends hs'
      rw [hadvance, hadvance']
      exact .ok trivial
  isNull := by
    rintro n s s' index c ⟨hs, hs'⟩
    obtain ⟨row, hrow⟩ : ∃ row, rows[k + n]? = some row := h.exists_current hs
    have hrow' : (rows.drop k)[n]? = some row := by rw [List.getElem?_drop, hrow]
    obtain ⟨s₁, hnull, hs₁⟩ := h.isNull (k + n) index c hs hrow
    obtain ⟨s₁', hnull', hs₁'⟩ := hother.isNull n index c hs' hrow'
    exact Stateful.agree_of_result hnull hnull' (fun null hok => ⟨hs₁ null hok, hs₁' null hok⟩)
      trivial
  read := by
    rintro n s s' index c ⟨hs, hs'⟩
    obtain ⟨row, hrow⟩ : ∃ row, rows[k + n]? = some row := h.exists_current hs
    have hrow' : (rows.drop k)[n]? = some row := by rw [List.getElem?_drop, hrow]
    obtain ⟨s₁, hread, hs₁⟩ := h.read (k + n) index c hs hrow
    obtain ⟨s₁', hread', hs₁'⟩ := hother.read n index c hs' hrow'
    exact Stateful.agree_of_result hread hread' (fun bytes hok => ⟨hs₁ bytes hok, hs₁' bytes hok⟩)
      trivial
  torn := fun _ => trivial

end RowSource.Lists

namespace Cursor

def only (row : List StoredCell) (scales : List Nat) (zone : Option Zone) : Cursor :=
  { rows := [row], scales := scales, zone := zone, current := some 0 }

def cells (scales : List Nat) (zone : Option Zone) : RowCells (List StoredCell) where
  isNull row index _ := (only row scales zone).isNull index
  read row index target := (only row scales zone).read index target

/-- The cursor when it has found so many of its rows. -/
def behind (c : Cursor) : Nat → Cursor
  | 0 => { c with current := none }
  | n + 1 => { c with current := some n }

theorem runFrom_advance_behind (c : Cursor) (n : Nat) :
    source.advance.runFrom (c.behind n) = (.ok (decide (min n c.rows.length < c.rows.length)),
      c.behind (min n c.rows.length + 1)) := by
  cases n <;> rfl

theorem runFrom_isNull (c : Cursor) (row index : Nat) (target : Column) :
    (source.isNull row index target).runFrom c = (c.isNull index, c) :=
  Stateful.runFrom_ofExcept _ _

theorem runFrom_read (c : Cursor) (row index : Nat) (target : Column) :
    (source.read row index target).runFrom c = (c.read index target, c) :=
  Stateful.runFrom_ofExcept _ _

theorem cell_behind {c : Cursor} {n : Nat} {row : List StoredCell} (h : c.rows[n]? = some row)
    (index : Nat) : (c.behind (n + 1)).cell index = (only row c.scales c.zone).cell index := by
  have hrow : ((c.behind (n + 1)).current.bind fun i => (c.behind (n + 1)).rows[i]?) = some row := h
  unfold cell
  rw [hrow]
  rfl

theorem lists_source (c : Cursor) :
    source.Lists (cells c.scales c.zone) c.rows fun n s => n ≤ c.rows.length ∧ s = c.behind n where
  le h := h.1
  advance := by
    rintro n _ ⟨hle, rfl⟩ hlt
    refine ⟨c.behind (n + 1), ?_, hlt, rfl⟩
    rw [runFrom_advance_behind, Nat.min_eq_left hle, decide_eq_true hlt]
  ends := by
    rintro _ ⟨-, rfl⟩
    refine ⟨c.behind (c.rows.length + 1), ?_⟩
    rw [runFrom_advance_behind, Nat.min_self, decide_eq_false (Nat.lt_irrefl _)]
  isNull := by
    rintro n _ row number index target ⟨hle, rfl⟩ hrow
    refine ⟨c.behind (n + 1), ?_, fun _ _ => ⟨hle, rfl⟩⟩
    rw [runFrom_isNull, isNull, cell_behind hrow]
    rfl
  read := by
    rintro n _ row number index target ⟨hle, rfl⟩ hrow
    refine ⟨c.behind (n + 1), ?_, fun _ _ => ⟨hle, rfl⟩⟩
    rw [runFrom_read, read, cell_behind hrow]
    rfl

end Cursor

end Zones

namespace StreamRequest

section Zones

variable [Zone.Catalogue] {σ σ' τ ρ : Type}

/-- The error of a stream that is to pass over more rows than there are. -/
def exhausted (r : StreamRequest) (total rows : Nat) : Error :=
  .dataAccess r.source ⟨s!"cannot skip {total} rows, result ended after {rows}", []⟩

/-- Two runs to one sink give the same answer and the same batches, and leave the sink alike. -/
structure DeliversAs (r : StreamRequest) (source : RowSource σ) (s : σ) (r' : StreamRequest)
    (other : RowSource σ') (s' : σ') (sink : Sink τ) (clock : Clock) (t : τ) : Prop where
  answer : ((r.run source sink clock).runFrom (s, t)).1 =
    ((r'.run other sink clock).runFrom (s', t)).1
  leaves : ((r.run source sink clock).runFrom (s, t)).2.2 =
    ((r'.run other sink clock).runFrom (s', t)).2.2
  deliveries : r.deliveries source sink clock s t = r'.deliveries other sink clock s' t

/-- A run fails before it asks for a cell or hands over a batch. -/
structure FailsAtOnce (r : StreamRequest) (source : RowSource σ) (s : σ) (sink : Sink τ)
    (clock : Clock) (t : τ) (e : Error) : Prop where
  answer : ((r.run source sink clock).runFrom (s, t)).1 = .error e
  leaves : ((r.run source sink clock).runFrom (s, t)).2.2 = t
  deliveries : r.deliveries source sink clock s t = []
  calls : ∀ call ∈ r.calls source sink clock s t, call.row? = none

variable {r : StreamRequest} {source : RowSource σ} {other : RowSource σ'} {sink : Sink τ}
  {clock : Clock} {cells : RowCells ρ} {rows : List ρ} {stands : Nat → σ → Prop}
  {stands' : Nat → σ' → Prop} {columns : List ResolvedColumn} {s s₁ s₂ : σ} {s' : σ'} {t : τ}
  {e : Error}

/-! ### Rows that are there -/

theorem run_agree_offset {k : Nat} (hlists : source.Lists cells rows stands) (hs : stands 0 s)
    (hother : other.Lists cells (rows.drop k) stands') (hs' : stands' 0 s')
    (hk : k ≤ rows.length) (r : StreamRequest) (sink : Sink τ) (clock : Clock) (t : τ) :
    Stateful.Agree (fun _ => Stateful.Beside fun _ _ => True) (Stateful.Beside fun _ _ => True)
      (((r.paged k 0).run source sink clock).runFrom (s, t))
      (((r.paged 0 0).run other sink clock).runFrom (s', t)) := by
  cases hresolve : r.resolve with
  | error e =>
      have hfull : (r.paged k 0).resolve = .error e := hresolve
      have hrest : (r.paged 0 0).resolve = .error e := hresolve
      rw [runFrom_run_of_resolve_error hfull, runFrom_run_of_resolve_error hrest]
      exact .error ⟨trivial, rfl⟩
  | ok columns =>
      have hfull : (r.paged k 0).resolve = .ok columns := hresolve
      have hrest : (r.paged 0 0).resolve = .ok columns := hresolve
      obtain ⟨s₀, hskip, hs₀⟩ := hlists.advances hs (show 0 + k ≤ rows.length by omega)
      rw [Nat.zero_add] at hs₀
      rw [runFrom_run hfull hskip, runFrom_run hrest (.zero s'), rowsAfter_nil, rowsAfter_nil]
      exact rows_agree (r.paged k 0) 0 0 (hlists.agree_drop hother hk) rfl sink _ clock columns
        maxRows false {} t ⟨hs₀, hs'⟩

theorem runFrom_rows_of_advance (h : source.advance.runFrom s = (.ok true, s₁))
    (deadline : Option Nat) (limit : Nat) (p : Progress) :
    (r.rows source sink deadline clock columns limit false p).runFrom (s, t) =
      (r.rows source sink deadline clock columns limit true p).runFrom (s₁, t) := by
  have hbefore : (Stateful.onFirst (r.nextRow source false) : Stateful Error (σ × τ) Bool).runFrom
      (s, t) = (.ok true, (s₁, t)) := by
    rw [Stateful.runFrom_onFirst, runFrom_nextRow_of_movesOn (.advances h)]
  have hon : (Stateful.onFirst (r.nextRow source true) : Stateful Error (σ × τ) Bool).runFrom
      (s₁, t) = (.ok true, (s₁, t)) := rfl
  rw [StreamRequest.rows.eq_def, StreamRequest.rows.eq_def, Stateful.runFrom_bind_of_ok hbefore,
    Stateful.runFrom_bind_of_ok hon]

/-- A position makes the same run as the offset by one less. -/
theorem runFrom_run_position {n : Nat} (hskip : source.Advances n s s₁)
    (hadvance : source.advance.runFrom s₁ = (.ok true, s₂)) (r : StreamRequest) (offset : Nat)
    (sink : Sink τ) (clock : Clock) (t : τ) :
    ((r.paged offset (n + 1)).run source sink clock).runFrom (s, t) =
      ((r.paged n 0).run source sink clock).runFrom (s, t) := by
  cases hresolve : r.resolve with
  | error e =>
      have hposition : (r.paged offset (n + 1)).resolve = .error e := hresolve
      have hoffset : (r.paged n 0).resolve = .error e := hresolve
      rw [runFrom_run_of_resolve_error hposition, runFrom_run_of_resolve_error hoffset]
  | ok columns =>
      have hposition : (r.paged offset (n + 1)).resolve = .ok columns := hresolve
      have hoffset : (r.paged n 0).resolve = .ok columns := hresolve
      rw [runFrom_run hposition (hskip.snoc hadvance), runFrom_run hoffset hskip, rowsAfter_nil,
        rowsAfter_nil]
      -- The position has left its source on the row to which the offset still has to move.
      refine Eq.trans ?_ (runFrom_rows_of_advance hadvance _ _ _).symm
      have hagree := rows_agree (r.paged offset (n + 1)) n 0 source.agree_refl
        (Nat.zero_add n).symm sink (deadlineOf sink (clock 0) r.params.timeout t) clock columns
        maxRows true {} t (Eq.refl s₂)
      obtain ⟨hstate, hsink⟩ := hagree.states
      exact Prod.ext hagree.result_eq (Prod.ext hstate hsink)

theorem deliversAs_offset {k : Nat} (hlists : source.Lists cells rows stands) (hs : stands 0 s)
    (hother : other.Lists cells (rows.drop k) stands') (hs' : stands' 0 s')
    (hk : k ≤ rows.length) (r : StreamRequest) (sink : Sink τ) (clock : Clock) (t : τ) :
    (r.paged k 0).DeliversAs source s (r.paged 0 0) other s' sink clock t where
  answer := (run_agree_offset hlists hs hother hs' hk r sink clock t).result_eq
  leaves := (run_agree_offset hlists hs hother hs' hk r sink clock t).states.2
  deliveries := congrArg Prod.snd
    (run_agree_offset hlists hs hother hs' hk r sink.logged clock (t, [])).states.2

theorem deliversAs_position {n : Nat} (hskip : source.Advances n s s₁)
    (hadvance : source.advance.runFrom s₁ = (.ok true, s₂)) (r : StreamRequest) (offset : Nat)
    (sink : Sink τ) (clock : Clock) (t : τ) :
    (r.paged offset (n + 1)).DeliversAs source s (r.paged n 0) source s sink clock t where
  answer := by rw [runFrom_run_position hskip hadvance]
  leaves := by rw [runFrom_run_position hskip hadvance]
  deliveries := by
    unfold deliveries
    rw [runFrom_run_position hskip hadvance]

/-! ### Runs that emit nothing -/

theorem failsAtOnce_of_resolve_error (h : r.resolve = .error e) (source : RowSource σ) (s : σ)
    (sink : Sink τ) (clock : Clock) (t : τ) : r.FailsAtOnce source s sink clock t e where
  answer := by rw [runFrom_run_of_resolve_error h]
  leaves := by rw [runFrom_run_of_resolve_error h]
  deliveries := by
    unfold deliveries
    rw [runFrom_run_of_resolve_error h]
  calls := by
    unfold calls
    rw [runFrom_run_of_resolve_error h]
    exact fun _ hcall => nomatch hcall

theorem failsAtOnce_of_skip_error (hresolve : r.resolve = .ok columns)
    (h : (r.skip source r.skipped 0 r.skipped).runFrom s = (.error e, s₁)) (sink : Sink τ)
    (clock : Clock) (t : τ) : r.FailsAtOnce source s sink clock t e where
  answer := by rw [runFrom_run_of_skip_error hresolve h]
  leaves := by rw [runFrom_run_of_skip_error hresolve h]
  deliveries := by
    unfold deliveries
    rw [runFrom_run_of_skip_error hresolve h]
  calls := by
    intro call hcall
    have hagree : Stateful.Agree _ _ ((r.skip source r.skipped 0 r.skipped).runFrom s)
        ((r.skip source.logged r.skipped 0 r.skipped).runFrom (s, [])) :=
      skip_agree r (source.agree_logged s) r.skipped r.skipped ⟨rfl, .start, source.follows_nil s⟩
    have hlogged : ((r.skip source.logged r.skipped 0 r.skipped).runFrom (s, [])).1 = .error e := by
      rw [← hagree.result_eq, h]
    unfold calls at hcall
    rw [runFrom_run_of_skip_error hresolve (Prod.ext hlogged rfl)] at hcall
    have hempty : ∀ call ∈ ([] : List (SourceCall σ)), call.row? = none := by simp
    exact row?_of_mem_skip hempty hcall

theorem runFrom_skip_of_lt (hlists : source.Lists cells rows stands) {passed left : Nat}
    (hs : stands passed s) (h : rows.length < passed + left) (total : Nat) :
    ∃ s', (r.skip source total passed left).runFrom s =
      (.error (r.exhausted total rows.length), s') := by
  induction left generalizing passed s with
  | zero =>
      have hle := hlists.le hs
      omega
  | succ left ih =>
      unfold skip
      obtain hlt | heq := Nat.lt_or_eq_of_le (hlists.le hs)
      · obtain ⟨s₁, hadvance, hs₁⟩ := hlists.advance hs hlt
        rw [Stateful.runFrom_bind_of_ok (runFrom_blame_ok hadvance)]
        exact ih hs₁ (by omega)
      · rw [heq] at hs
        obtain ⟨s₁, hadvance⟩ := hlists.ends hs
        rw [Stateful.runFrom_bind_of_ok (runFrom_blame_ok hadvance), heq]
        exact ⟨s₁, rfl⟩

theorem failsAtOnce_of_lt_skipped (hlists : source.Lists cells rows stands) (hs : stands 0 s)
    (hresolve : r.resolve = .ok columns) (h : rows.length < r.skipped) (sink : Sink τ)
    (clock : Clock) (t : τ) :
    r.FailsAtOnce source s sink clock t (r.exhausted r.skipped rows.length) := by
  obtain ⟨s₁, hskip⟩ := runFrom_skip_of_lt (r := r) hlists hs
    (show rows.length < 0 + r.skipped by omega) r.skipped
  exact failsAtOnce_of_skip_error hresolve hskip sink clock t

/-! ### Pages -/

/-- Offsets and positions over a source of rows whose cells depend on the current row alone. An
offset within the rows delivers what the rows behind it deliver alone, and a position within them
what the offset by one less does. Beyond the rows either fails before any cell is asked for, once
the columns are resolved; one that is not is an error before that. A call for a cell names the place
of the current row among all rows. -/
theorem run_paged (hlists : source.Lists cells rows stands) (hs : stands 0 s) (r : StreamRequest)
    (sink : Sink τ) (clock : Clock) (t : τ) :
    (∀ k ≤ rows.length, ∀ {σ' : Type} (other : RowSource σ') (stands' : Nat → σ' → Prop) (s' : σ'),
      other.Lists cells (rows.drop k) stands' → stands' 0 s' →
        (r.paged k 0).DeliversAs source s (r.paged 0 0) other s' sink clock t) ∧
    (∀ offset position, 0 < position → position ≤ rows.length →
      (r.paged offset position).DeliversAs source s (r.paged (position - 1) 0) source s sink clock
        t) ∧
    (∀ columns, r.resolve = .ok columns →
      (∀ k, rows.length < k →
        (r.paged k 0).FailsAtOnce source s sink clock t (r.exhausted k rows.length)) ∧
      ∀ offset position, rows.length < position →
        (r.paged offset position).FailsAtOnce source s sink clock t
          (r.exhausted position rows.length)) ∧
    (∀ k, (r.exhausted k rows.length).code = "DATA_ACCESS_ERROR") ∧
    (∀ e, r.resolve = .error e → ∀ offset position,
      (r.paged offset position).FailsAtOnce source s sink clock t e) ∧
    ∀ offset position, ∀ call ∈ (r.paged offset position).calls source sink clock s t,
      ∀ row, call.row? = some row → row < rows.length ∧ stands (row + 1) call.state := by
  refine ⟨?_, ?_, ?_, fun _ => rfl, ?_, ?_⟩
  · intro k hk σ' other stands' s' hother hs'
    exact deliversAs_offset hlists hs hother hs' hk r sink clock t
  · intro offset position hpos hposition
    obtain ⟨n, rfl⟩ : ∃ n, position = n + 1 := ⟨position - 1, by omega⟩
    obtain ⟨s₁, hskip, hs₁⟩ := hlists.advances hs (show 0 + n ≤ rows.length by omega)
    obtain ⟨s₂, hadvance, -⟩ := hlists.advance hs₁ (by omega)
    exact deliversAs_position hskip hadvance r offset sink clock t
  · intro columns hresolve
    refine ⟨?_, ?_⟩
    · intro k hk
      have hall : (r.paged k 0).resolve = .ok columns := hresolve
      exact failsAtOnce_of_lt_skipped hlists hs hall hk sink clock t
    · intro offset position hposition
      have hall : (r.paged offset position).resolve = .ok columns := hresolve
      have hskipped : (r.paged offset position).skipped = position :=
        if_pos (show 0 < position by omega)
      have hfails := failsAtOnce_of_lt_skipped (r := r.paged offset position) hlists hs hall
        (by omega) sink clock t
      rw [hskipped] at hfails
      exact hfails
  · intro e hresolve offset position
    have hall : (r.paged offset position).resolve = .error e := hresolve
    exact failsAtOnce_of_resolve_error hall source s sink clock t
  · intro offset position call hcall row hrow
    obtain ⟨n, hreaches, hnumber⟩ := follows_calls _ source sink clock s t call hcall
    rw [hnumber row hrow] at hreaches
    have hstands := hlists.stands_of_reaches hs hreaches
    exact ⟨hlists.le hstands, hstands⟩

end Zones

theorem run_paged_pairs :
    pairsRequest.resolve = .ok pairsColumns ∧
    (pairsRequest.paged 1 0).deliveries Cursor.source Collector.sink (.still 0) pairsCursor {} =
      [⟨[1, 0, 7], true⟩] ∧
    (pairsRequest.paged 1 0).DeliversAs Cursor.source pairsCursor (pairsRequest.paged 0 0)
      Cursor.source { pairsCursor with rows := [[none], [some (.int32 7)]] } Collector.sink
      (.still 0) {} ∧
    (pairsRequest.paged 0 2).DeliversAs Cursor.source pairsCursor (pairsRequest.paged 1 0)
      Cursor.source pairsCursor Collector.sink (.still 0) {} ∧
    (pairsRequest.paged 4 0).FailsAtOnce Cursor.source pairsCursor Collector.sink (.still 0) {}
      (pairsRequest.exhausted 4 3) ∧
    (pairsRequest.paged 3 4).FailsAtOnce Cursor.source pairsCursor Collector.sink (.still 0) {}
      (pairsRequest.exhausted 4 3) := by
  have hresolve : pairsRequest.resolve = .ok pairsColumns := by decide
  obtain ⟨hoffset, hposition, hbeyond, -⟩ := run_paged (Cursor.lists_source pairsCursor)
    ⟨Nat.zero_le _, rfl⟩ pairsRequest Collector.sink (.still 0) {}
  obtain ⟨hbeyondOffset, hbeyondPosition⟩ := hbeyond _ hresolve
  refine ⟨hresolve, rfl, ?_, hposition 0 2 (by decide) (by decide), hbeyondOffset 4 (by decide),
    hbeyondPosition 3 4 (by decide)⟩
  exact hoffset 1 (by decide) Cursor.source _ _
    (Cursor.lists_source { pairsCursor with rows := [[none], [some (.int32 7)]] })
    ⟨Nat.zero_le _, rfl⟩

def unresolvedRequest : StreamRequest := { pairsRequest with result := Table.empty }

def emptyCursor : Cursor := { rows := [], scales := [], zone := none }

/-- Beyond the rows a column that is not resolved is an error as well, but not one of access. -/
theorem not_failsAtOnce_unresolved :
    Cursor.source.Lists (Cursor.cells [] none) []
      (fun n s => n ≤ 0 ∧ s = emptyCursor.behind n) ∧
    ¬∃ e, (((unresolvedRequest.paged 1 0).run Cursor.source Collector.sink (.still 0)).runFrom
      (emptyCursor, {})).1 = .error e ∧ e.code = "DATA_ACCESS_ERROR" := by
  refine ⟨Cursor.lists_source emptyCursor, ?_⟩
  rintro ⟨e, hanswer, hcode⟩
  have hunresolved : (((unresolvedRequest.paged 1 0).run Cursor.source Collector.sink
      (.still 0)).runFrom (emptyCursor, {})).1 = .error (.resolution "n" []) := rfl
  rw [hunresolved] at hanswer
  cases hanswer
  revert hcode
  decide

end StreamRequest

end RowStream
