import RowStream.Proofs.Stream.ParameterEntries

/-!
# What entries say to different settings

The kind of answer that a request asks for is told by its entries alone: over whatever parameters
they are merged, they are accepted or refused alike, and agree on mutations and debug requests.
-/

namespace RowStream.Parameters

structure SameMode (p q : Parameters) : Prop where
  mutation : p.mutation = q.mutation
  debug : p.debug = q.debug

theorem SameMode.apply {p q : Parameters} (h : SameMode p q) (c : Change) :
    SameMode (c.apply p) (c.apply q) := by
  cases c with
  | debug b => exact ⟨h.mutation, rfl⟩
  | mutation b => exact ⟨rfl, h.debug⟩
  | _ => exact ⟨h.mutation, h.debug⟩

theorem SameMode.merge {p q p' : Parameters} {key value : String} (h : SameMode p q)
    (hp : p.merge key value = .ok p') : ∃ q', q.merge key value = .ok q' ∧ SameMode p' q' := by
  rw [merge_eq p (key, value)] at hp
  rw [merge_eq q (key, value)]
  obtain ⟨change, hchange, rfl⟩ := map_ok hp
  rw [hchange]
  cases change with
  | none => exact ⟨q, rfl, h⟩
  | some c => exact ⟨c.apply q, rfl, h.apply c⟩

theorem SameMode.mergeAll {p q p' : Parameters} {entries : List (String × String)}
    (h : SameMode p q) (hp : p.mergeAll entries = (p', .ok ())) :
    ∃ q', q.mergeAll entries = (q', .ok ()) ∧ SameMode p' q' := by
  induction entries generalizing p q with
  | nil =>
      cases hp
      exact ⟨q, rfl, h⟩
  | cons entry rest ih =>
      obtain ⟨key, value⟩ := entry
      unfold Parameters.mergeAll at hp ⊢
      split at hp
      · next p₁ hp₁ =>
          obtain ⟨q₁, hq₁, h₁⟩ := h.merge hp₁
          rw [hq₁]
          exact ih h₁ hp
      · cases hp

theorem exists_sameMode_ofEntries {settings : QuerySettings} {entries : List (String × String)}
    {p : Parameters} (hp : ofEntries settings entries = .ok p) (other : QuerySettings) :
    ∃ q, ofEntries other entries = .ok q ∧ SameMode p q := by
  have hstart : SameMode (ofSettings settings) (ofSettings other) := ⟨rfl, rfl⟩
  unfold ofEntries at hp ⊢
  split at hp
  · next p₁ hmerged =>
      cases hp
      obtain ⟨q, hq, h⟩ := hstart.mergeAll hmerged
      rw [hq]
      exact ⟨q, rfl, h⟩
  · cases hp

end RowStream.Parameters
