import RowStream.Proofs.Wire.Reading
import RowStream.Wire.Writer

/-!
# What writers put

A writer puts an encoding when it appends its bytes and touches nothing else of the buffer, or is
refused with its error before the first byte. Every writer here puts the encoding that it is
named for, in however many parts.
-/

namespace RowStream.Wire

theorem Buffer.append_append (b : Buffer) (bytes more : List UInt8) :
    (b.append bytes).append more = b.append (bytes ++ more) := by
  simp [Buffer.append]

namespace Writer

/-- Every buffer gets the bytes of the encoding at its end, or is left as it was. -/
def Puts (w : Writer) (encoding : Except Error (List UInt8)) : Prop :=
  ∀ b : Buffer, w.run b =
    match encoding with
    | .ok bytes => (.ok (), b.append bytes)
    | .error e => (.error e, b)

theorem puts_put (bytes : List UInt8) : (put bytes).Puts (.ok bytes) := fun _ => rfl

theorem puts_throw (e : Error) : Puts (throw e) (.error e) := fun _ => rfl

theorem puts_offer (encoding : Except Error (List UInt8)) : (offer encoding).Puts encoding := by
  cases encoding
  · exact puts_throw _
  · exact puts_put _

theorem puts_pure : Puts (pure ()) (.ok []) := fun b => by
  change (Except.ok (), b) = _
  simp [Buffer.append]

variable {w w' : Writer} {bytes more : List UInt8} {e : Error}

theorem run_andThen_of_ok {b b' : Buffer} (h : w.run b = (.ok (), b')) :
    run (do w; w') b = w'.run b' := by
  have hbind := Reader.run_bind w (fun _ => w') b
  have hfirst : Reader.run w b = (.ok (), b') := h
  rwa [hfirst] at hbind

theorem run_andThen_of_error {b b' : Buffer} (h : w.run b = (.error e, b')) :
    run (do w; w') b = (.error e, b') := by
  have hbind := Reader.run_bind w (fun _ => w') b
  have hfirst : Reader.run w b = (.error e, b') := h
  rwa [hfirst] at hbind

/-- Parts are put one after the other when none is refused; what is refused behind a part leaves
that part in the buffer. -/
theorem Puts.andThen (h : w.Puts (.ok bytes)) (h' : w'.Puts (.ok more)) :
    Puts (do w; w') (.ok (bytes ++ more)) := by
  intro b
  calc
    run (do w; w') b = w'.run (b.append bytes) := run_andThen_of_ok (h b)
    _ = (.ok (), (b.append bytes).append more) := h' _
    _ = (.ok (), b.append (bytes ++ more)) := by rw [Buffer.append_append]

theorem Puts.andThen_of_error (h : w.Puts (.error e)) : Puts (do w; w') (.error e) :=
  fun b => run_andThen_of_error (h b)

end Writer

open Writer

theorem puts_writeSized (bytes : List UInt8) : (writeSized bytes).Puts (sized bytes) := by
  unfold writeSized sized
  split
  · exact (puts_put _).andThen (puts_put bytes)
  · exact puts_throw _

theorem puts_writeText (s : String) : (writeText s).Puts (text s) := puts_writeSized _

theorem puts_writeUuid (u : Uuid) : (writeUuid u).Puts (.ok (uuid u)) :=
  (puts_put _).andThen (puts_put _)

theorem puts_writePadded (bytes : List UInt8) (length : Nat) :
    Puts (do writeFixed bytes length; writeZeros (length - bytes.length)) (padded bytes length) := by
  have hfixed := puts_offer (fixed bytes length)
  unfold padded
  unfold writeFixed
  unfold fixed at hfixed ⊢
  split
  · next hle =>
    rw [if_pos hle] at hfixed
    exact hfixed.andThen (puts_put _)
  · next hgt =>
    rw [if_neg hgt] at hfixed
    exact hfixed.andThen_of_error

end RowStream.Wire
