import RowStream.Text.Blank

/-!
# Time zones

Which zones there are and what their clocks show is a parameter: whatever depends on it takes a
`Zone.Catalogue`. A `Zone` is a name that the catalogue knows, so that `Zone.ofName?_name` finds it
again. Functions whose name ends in `By` take the clocks apart from the catalogue.
-/

namespace RowStream

/-- A data base of time zones. Its names have no blanks around them, and are not blank. -/
class Zone.Catalogue where
  known : String → Bool
  /-- The offset, in seconds from universal time, of the clocks of a name at an instant. -/
  offset : String → Int → Int
  trimmed_of_known : ∀ s, known s = true → Text.trimmed s = s
  allBlank_of_known : ∀ s, known s = true → Text.allBlank s = false

variable [Zone.Catalogue]

structure Zone where
  name : String
  known : Zone.Catalogue.known name = true
deriving DecidableEq, Repr

namespace Zone

/-- The zone of a name, upper and lower case told apart. -/
def ofName? (s : String) : Option Zone :=
  if h : Catalogue.known s = true then some ⟨s, h⟩ else none

def offset (z : Zone) (seconds : Int) : Int := Catalogue.offset z.name seconds

theorem ofName?_name (z : Zone) : ofName? z.name = some z := dif_pos z.known

theorem trimmed_name (z : Zone) : Text.trimmed z.name = z.name :=
  Catalogue.trimmed_of_known z.name z.known

theorem allBlank_name (z : Zone) : Text.allBlank z.name = false :=
  Catalogue.allBlank_of_known z.name z.known

abbrev Clocks := Zone → Int → Int

/-- The offset of an optional zone: none counts as universal time. -/
def offsetBy (clocks : Clocks) (z : Option Zone) (seconds : Int) : Int :=
  match z with
  | some z => clocks z seconds
  | none => 0

end Zone

end RowStream
