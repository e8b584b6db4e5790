import RowStream.Calendar.Catalogue
import RowStream.Proofs.Wire.Writing
import RowStream.Wire.Operation

/-!
# The cursor under operations

Whatever is done to a buffer, bytes are added at its end and the cursor moves on among them. A
reader of a fixed width takes all of its bytes or none, wherever the cursor stands; of the formats
here only an identifier is read in two parts, of which the first may be taken alone.
-/

namespace RowStream.Wire

namespace Reader

variable {α β : Type}

/-- Reading moves the cursor over bytes that are left, and does nothing else to the buffer. -/
def Advances (r : Reader α) : Prop :=
  ∀ b : Buffer, ∃ n, n ≤ b.remaining ∧ (r.run b).2 = { b with position := b.position + n }

def StandsStill (r : Reader α) : Prop := ∀ b : Buffer, (r.run b).2 = b

/-- Where fewer than `width` bytes are left reading fails and the buffer stays as it is; otherwise
these are the bytes that the cursor moves over. -/
structure TakesWhole (r : Reader α) (width : Nat) : Prop where
  lacking : ∀ b : Buffer, b.remaining < width → ∃ fault, r.run b = (.error (.decode fault), b)
  moved : ∀ b : Buffer, width ≤ b.remaining →
    (r.run b).2 = { b with position := b.position + width }

variable {r : Reader α} {f : α → Reader β} {width : Nat} {b : Buffer}

theorem remaining_moved (b : Buffer) (n : Nat) :
    Buffer.remaining { b with position := b.position + n } = b.remaining - n := by
  simp only [Buffer.remaining, Buffer.size]
  omega

theorem standsStill_pure (a : α) : (pure a : Reader α).StandsStill := fun _ => rfl

theorem standsStill_malformed (fault : DecodeFault) : (malformed fault : Reader α).StandsStill :=
  fun _ => rfl

theorem StandsStill.advances (h : r.StandsStill) : r.Advances :=
  fun b => ⟨0, Nat.zero_le _, h b⟩

theorem TakesWhole.advances (h : r.TakesWhole width) : r.Advances := by
  intro b
  by_cases hleft : b.remaining < width
  · obtain ⟨fault, hrun⟩ := h.lacking b hleft
    exact ⟨0, Nat.zero_le _, congrArg Prod.snd hrun⟩
  · exact ⟨width, Nat.not_lt.1 hleft, h.moved b (Nat.not_lt.1 hleft)⟩

theorem takesWhole_take (width : Nat) : (take width).TakesWhole width where
  lacking b hleft := ⟨_, run_take_of_lt hleft⟩
  moved b hleft := by rw [run_take_of_le hleft]

/-- What stands behind a reader may refuse what it has read, but must not read on. -/
theorem TakesWhole.bind (h : r.TakesWhole width) (hf : ∀ a, (f a).StandsStill) :
    (r >>= f).TakesWhole width where
  lacking b hleft := by
    obtain ⟨fault, hrun⟩ := h.lacking b hleft
    exact ⟨fault, by rw [run_bind, hrun]⟩
  moved b hleft := by
    have hmoved := h.moved b hleft
    rw [run_bind]
    rcases hrun : r.run b with ⟨e | a, b'⟩
    · rwa [hrun] at hmoved
    · rw [hrun] at hmoved
      exact (hf a b').trans hmoved

theorem TakesWhole.map (g : α → β) (h : r.TakesWhole width) : (g <$> r).TakesWhole width := by
  rw [map_eq_pure_bind]
  exact h.bind fun a => standsStill_pure (g a)

theorem Advances.bind (h : r.Advances) (hf : ∀ a, (f a).Advances) : (r >>= f).Advances := by
  intro b
  obtain ⟨n, hn, hfirst⟩ := h b
  rw [run_bind]
  rcases hrun : r.run b with ⟨e | a, b'⟩
  · rw [hrun] at hfirst
    exact ⟨n, hn, hfirst⟩
  · rw [hrun] at hfirst
    cases hfirst
    obtain ⟨m, hm, hsecond⟩ := hf a { b with position := b.position + n }
    rw [remaining_moved] at hm
    refine ⟨n + m, by omega, ?_⟩
    rw [hsecond, Nat.add_assoc]

end Reader

open Reader Writer

/-! ## Readers -/

theorem takesWhole_readUnsigned (width : Nat) : (readUnsigned width).TakesWhole width :=
  (takesWhole_take width).bind fun _ => standsStill_pure _

theorem run_readUnsigned_of_le {b : Buffer} {width : Nat} (h : width ≤ b.remaining) :
    (readUnsigned width).run b = (.ok (ofLittleEndian ((b.bytes.drop b.position).take width)),
      { b with position := b.position + width }) := by
  unfold readUnsigned
  rw [run_bind, run_take_of_le h]
  rfl

theorem snd_run_readUuid_of_le {b : Buffer} (h : 16 ≤ b.remaining) :
    (readUuid.run b).2 = { b with position := b.position + 16 } := by
  have hrest : 8 ≤ Buffer.remaining { b with position := b.position + 8 } := by
    rw [remaining_moved]
    omega
  unfold readUuid
  rw [run_bind, run_readUnsigned_of_le (by omega)]
  dsimp only
  rw [run_bind, run_readUnsigned_of_le hrest]
  rfl

theorem run_readUuid_of_lt {b : Buffer} (h : b.remaining < 16) :
    ∃ fault, readUuid.run b = (.error (.decode fault),
      if 8 ≤ b.remaining then { b with position := b.position + 8 } else b) := by
  unfold readUuid
  by_cases hhalf : 8 ≤ b.remaining
  · have hrest : Buffer.remaining { b with position := b.position + 8 } < 8 := by
      rw [remaining_moved]
      omega
    obtain ⟨fault, hlow⟩ := (takesWhole_readUnsigned 8).lacking _ hrest
    refine ⟨fault, ?_⟩
    -- The second half fails where the first one has left the cursor.
    rw [if_pos hhalf, run_bind, run_readUnsigned_of_le hhalf]
    dsimp only
    rw [run_bind, hlow]
  · obtain ⟨fault, hhigh⟩ := (takesWhole_readUnsigned 8).lacking b (Nat.not_le.1 hhalf)
    refine ⟨fault, ?_⟩
    rw [if_neg hhalf, run_bind, hhigh]

theorem takesWhole_readDateTime64 (scale : Nat) : (readDateTime64 scale).TakesWhole 8 := by
  refine (takesWhole_readUnsigned 8).bind ?_
  intro ticks
  cases instantOfTicks? ticks scale with
  | some t => exact standsStill_pure t
  | none => exact standsStill_malformed _

theorem FixedFormat.takesWhole_read {f : FixedFormat} (h : f ≠ .uuid) :
    f.read.TakesWhole f.width := by
  cases f with
  | uuid => exact absurd rfl h
  | flag | integer | decimal | ipv6 => exact (takesWhole_take _).bind fun _ => standsStill_pure _
  | binary32 | binary64 => exact (takesWhole_readUnsigned _).map _
  | days | seconds | ticks => exact takesWhole_readUnsigned _
  | date | dateTime | ipv4 => exact (takesWhole_readUnsigned _).bind fun _ => standsStill_pure _
  | dateTime64 scale => exact takesWhole_readDateTime64 scale
  | bytes length => exact takesWhole_take length

theorem FixedFormat.advances_read (f : FixedFormat) : f.read.Advances := by
  by_cases h : f = .uuid
  · subst h
    refine (takesWhole_readUnsigned 8).advances.bind fun high => ?_
    exact (takesWhole_readUnsigned 8).advances.bind fun low => (standsStill_pure _).advances
  · exact (takesWhole_read h).advances

theorem advances_readGroups (value weight groups : Nat) :
    (readGroups value weight groups).Advances := by
  induction groups generalizing value weight with
  | zero => exact (standsStill_malformed _).advances
  | succ groups ih =>
    refine (takesWhole_take 1).advances.bind fun bytes => ?_
    dsimp only
    split
    · split
      · exact (standsStill_pure _).advances
      · exact (standsStill_malformed _).advances
    · exact ih _ _

theorem advances_readVarint : readVarint.Advances := advances_readGroups 0 1 maxGroups

theorem advances_readSized : readSized.Advances :=
  advances_readVarint.bind fun n => (takesWhole_take n).advances

theorem advances_readText : readText.Advances := by
  refine advances_readSized.bind fun bytes => ?_
  cases Utf8.decode bytes with
  | ok cs => exact (standsStill_pure _).advances
  | error fault => exact (standsStill_malformed _).advances

/-! ## Operations -/

theorem Writing.exists_puts [Zone.Catalogue] (what : Writing) :
    ∃ encoding, what.writer.Puts encoding := by
  cases what with
  | integer | decimal | fixed => exact ⟨_, puts_offer _⟩
  | text s => exact ⟨_, puts_writeText s⟩
  | line s => exact ⟨_, puts_writeText (joinLines s)⟩
  | sized bytes => exact ⟨_, puts_writeSized bytes⟩
  | uuid u => exact ⟨_, puts_writeUuid u⟩
  | _ => exact ⟨_, puts_put _⟩

namespace Buffer

/-- A buffer that another one becomes: bytes are added at its end and the cursor moves on. -/
structure Becomes (b b' : Buffer) : Prop where
  bytes : b.bytes <+: b'.bytes
  position : b.position ≤ b'.position
  within : b.position ≤ b.size → b'.position ≤ b'.size

theorem Becomes.refl (b : Buffer) : b.Becomes b := ⟨List.prefix_rfl, Nat.le_refl _, id⟩

theorem Becomes.trans {a b c : Buffer} (h : a.Becomes b) (h' : b.Becomes c) : a.Becomes c where
  bytes := h.bytes.trans h'.bytes
  position := Nat.le_trans h.position h'.position
  within ha := h'.within (h.within ha)

theorem becomes_append (b : Buffer) (bytes : List UInt8) : b.Becomes (b.append bytes) where
  bytes := List.prefix_append _ _
  position := Nat.le_refl _
  within hb := by
    simp only [append, size, List.length_append] at hb ⊢
    omega

theorem becomes_moved {b : Buffer} {n : Nat} (h : n ≤ b.remaining) :
    b.Becomes { b with position := b.position + n } where
  bytes := List.prefix_rfl
  position := Nat.le_add_right _ _
  within hb := by
    simp only [remaining, size] at h hb ⊢
    omega

theorem becomes_of_puts {w : Writer} {encoding : Except Error (List UInt8)} (h : w.Puts encoding)
    (b : Buffer) : b.Becomes (w.run b).2 := by
  rw [h b]
  cases encoding with
  | ok bytes => exact becomes_append b bytes
  | error e => exact .refl b

theorem becomes_of_advances {α : Type} {r : Reader α} (h : r.Advances) (b : Buffer) :
    b.Becomes (r.run b).2 := by
  obtain ⟨n, hn, hrun⟩ := h b
  rw [hrun]
  exact becomes_moved hn

variable [Zone.Catalogue]

theorem becomes_perform (b : Buffer) (op : Operation) : b.Becomes (b.perform op) := by
  cases op with
  | write what =>
    obtain ⟨encoding, hputs⟩ := what.exists_puts
    exact becomes_of_puts hputs b
  | read format => exact becomes_of_advances format.advances_read b
  | readVarint => exact becomes_of_advances advances_readVarint b
  | readSized => exact becomes_of_advances advances_readSized b
  | readText => exact becomes_of_advances advances_readText b

theorem becomes_performAll (b : Buffer) (ops : List Operation) : b.Becomes (b.performAll ops) := by
  induction ops generalizing b with
  | nil => exact .refl b
  | cons op ops ih => exact (becomes_perform b op).trans (ih _)

end Buffer

/-- Whatever has been done to a buffer, its cursor stands within its bytes and nothing changes these
later. Where fewer bytes are left than a format takes, reading fails with an error of decoding and
the buffer stays as it is, except that an identifier keeps its first half if there were bytes for
it. Where there are enough, the cursor moves over just these, whatever they stand for. -/
theorem read_fixed_of_performAll [Zone.Catalogue] (bytes : List UInt8) (ops : List Operation) :
    let b := (Buffer.ofBytes bytes).performAll ops
    b.position ≤ b.size ∧
    (∀ more, b.bytes <+: (b.performAll more).bytes) ∧
    ∀ f : FixedFormat,
      (b.remaining < f.width → ∃ fault, f.read.run b = (.error (.decode fault),
        if f = .uuid ∧ 8 ≤ b.remaining then { b with position := b.position + 8 } else b)) ∧
      (f.width ≤ b.remaining →
        (f.read.run b).2 = { b with position := b.position + f.width }) := by
  intro b
  have hreached := Buffer.becomes_performAll (Buffer.ofBytes bytes) ops
  refine ⟨hreached.within (Nat.zero_le _), fun more => (b.becomes_performAll more).bytes, ?_⟩
  intro f
  by_cases huuid : f = .uuid
  · subst huuid
    simp only [true_and]
    exact ⟨run_readUuid_of_lt, snd_run_readUuid_of_le⟩
  · simp only [huuid, false_and, if_false]
    have hwhole := FixedFormat.takesWhole_read huuid
    exact ⟨hwhole.lacking b, hwhole.moved b⟩

theorem read_fixed_of_performAll_flag :
    let b := (Buffer.ofBytes [1, 2, 3]).performAll [.read .flag, .write (.zeros 1)]
    (∃ fault, FixedFormat.seconds.read.run b = (.error (.decode fault), b)) ∧
      (FixedFormat.days.read.run b).2 = { b with position := 3 } := by
  obtain ⟨-, -, hread⟩ := read_fixed_of_performAll [1, 2, 3] [.read .flag, .write (.zeros 1)]
  exact ⟨(hread .seconds).1 (by decide), (hread .days).2 (by decide)⟩

/-- The first half of an identifier is taken although there are no bytes for the second. -/
theorem not_untouched_half_uuid :
    let b := (Buffer.ofBytes [1, 2, 3, 4, 5, 6, 7, 8]).performAll []
    b.remaining < FixedFormat.uuid.width ∧ (FixedFormat.uuid.read.run b).2 ≠ b := by
  decide

end RowStream.Wire
