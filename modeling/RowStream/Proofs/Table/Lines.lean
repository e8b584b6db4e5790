import RowStream.Calendar.Catalogue
import RowStream.Proofs.Column.Line
import RowStream.Proofs.Table
import RowStream.Proofs.Table.Inline

/-!
# Tables in lines

A table in lines has a header with its version, the number of its columns and a declaration on every
further line. Reading it gives the version back and the columns that the declarations declare, each
read alone, as long as every name stands on one line. A name that does not tears its declaration,
and the table is refused.
-/

namespace RowStream

open Text Text.Numeral

namespace Text

theorem mem_splitOn_intercalate {piece line : List Char} {lines : List (List Char)}
    (hpiece : piece ∈ line.splitOn '\n') (hline : line ∈ lines) :
    piece ∈ (['\n'].intercalate lines).splitOn '\n' := by
  induction lines with
  | nil => cases hline
  | cons first lines ih =>
      cases lines with
      | nil =>
          rw [List.intercalate_singleton, ← List.mem_singleton.1 hline]
          exact hpiece
      | cons second lines =>
          rw [List.intercalate_cons_cons, List.append_assoc, List.singleton_append,
            List.splitOn_eq_splitOnP, List.splitOnP_append_cons _ _ (by decide), List.mem_append,
            ← List.splitOn_eq_splitOnP, ← List.splitOn_eq_splitOnP]
          rcases List.mem_cons.1 hline with rfl | hline
          · exact .inl hpiece
          · exact .inr (ih hline)

theorem intercalate_append_lineFeed {lines : List (List Char)} (h : lines ≠ []) :
    ['\n'].intercalate lines ++ ['\n'] = lines.flatMap fun line => line ++ ['\n'] := by
  induction lines with
  | nil => exact absurd rfl h
  | cons first lines ih =>
      cases lines with
      | nil => simp
      | cons second lines =>
          rw [List.flatMap_cons, List.intercalate_cons_cons, List.append_assoc,
            ih (List.cons_ne_nil _ _)]

end Text

namespace Table

def withoutReturn (line : List Char) : List Char :=
  if line.getLast? = some '\r' then line.dropLast else line

theorem trim_withoutReturn (line : List Char) : trim (withoutReturn line) = trim line := by
  unfold withoutReturn
  split
  · next h =>
      obtain ⟨front, rfl⟩ := List.getLast?_eq_some_iff.1 h
      rw [List.dropLast_concat, trim_append_blank (by decide)]
  · rfl

theorem withoutReturn_of_trim {line : List Char} (h : trim line = line) :
    withoutReturn line = line := by
  unfold withoutReturn
  rw [if_neg]
  intro hlast
  have hend := getLast?_not_blank_of_trim h
  rw [hlast] at hend
  cases hend

theorem linesOf_of_splitOn {cs last : List Char} {front : List (List Char)}
    (h : cs.splitOn '\n' = front ++ [last]) :
    linesOf cs = front.map withoutReturn ++ if last.isEmpty then [] else [last] := by
  have hreverse : (front ++ [last]).reverse = last :: front.reverse := by
    rw [List.reverse_append, List.reverse_singleton, List.singleton_append]
  unfold linesOf
  rw [h, hreverse]
  dsimp only
  rw [← List.map_reverse, List.reverse_reverse]
  rfl

theorem exists_splitOn (cs : List Char) : ∃ front last, cs.splitOn '\n' = front ++ [last] := by
  have hne : cs.splitOn '\n' ≠ [] := by
    rw [List.splitOn_eq_splitOnP]
    exact List.splitOnP_ne_nil _ _
  exact ⟨_, _, (List.dropLast_append_getLast hne).symm⟩

theorem linesOf_intercalate_cons {line : List Char} (hline : '\n' ∉ line) (htrim : trim line = line)
    (hne : line ≠ []) (lines : List (List Char)) :
    linesOf (['\n'].intercalate (line :: lines)) = line :: linesOf (['\n'].intercalate lines) := by
  cases lines with
  | nil =>
      have hempty : line.isEmpty = false := by simpa using hne
      have hsplit : line.splitOn '\n' = [] ++ [line] := List.splitOn_eq_singleton hline
      rw [List.intercalate_singleton, linesOf_of_splitOn hsplit, hempty]
      rfl
  | cons second lines =>
      obtain ⟨front, last, hsplit⟩ := exists_splitOn (['\n'].intercalate (second :: lines))
      have hfirst : (['\n'].intercalate (line :: second :: lines)).splitOn '\n' =
          (line :: front) ++ [last] := by
        rw [List.intercalate_cons_cons, List.append_assoc, List.singleton_append,
          List.splitOn_eq_splitOnP, List.splitOnP_append_cons _ _ (by decide),
          ← List.splitOn_eq_splitOnP, ← List.splitOn_eq_splitOnP, hsplit,
          List.splitOn_eq_singleton hline]
        rfl
      rw [linesOf_of_splitOn hfirst, linesOf_of_splitOn hsplit, List.map_cons,
        withoutReturn_of_trim htrim, List.cons_append]

/-- The texts of lines without the blanks around them; blank ones are dropped. -/
def trimmedLines (lines : List (List Char)) : List (List Char) :=
  (lines.map trim).filter fun line => !line.isEmpty

theorem trimmedLines_append (front back : List (List Char)) :
    trimmedLines (front ++ back) = trimmedLines front ++ trimmedLines back := by
  unfold trimmedLines
  rw [List.map_append, List.filter_append]

theorem trimmedLines_linesOf (cs : List Char) :
    trimmedLines (linesOf cs) = trimmedLines (cs.splitOn '\n') := by
  obtain ⟨front, last, hsplit⟩ := exists_splitOn cs
  have hfront : trimmedLines (front.map withoutReturn) = trimmedLines front := by
    unfold trimmedLines
    rw [List.map_map]
    apply congrArg
    exact List.map_congr_left fun line _ => trim_withoutReturn line
  rw [linesOf_of_splitOn hsplit, hsplit, trimmedLines_append, trimmedLines_append, hfront]
  cases last with
  | nil => rfl
  | cons c last => rfl

theorem trimmedLines_of_trim {lines : List (List Char)} (htrim : ∀ line ∈ lines, trim line = line)
    (hne : ∀ line ∈ lines, line ≠ []) : trimmedLines lines = lines := by
  have hmap : lines.map trim = lines.map id := List.map_congr_left htrim
  unfold trimmedLines
  rw [hmap, List.map_id]
  exact List.filter_eq_self.2 fun line hline => by simpa using hne line hline

def header (version : Nat) : List Char := versionLabel ++ ' ' :: (toString version).toList

def countLine (count : Nat) : List Char := (toString count).toList ++ ' ' :: countLabel

def lines [Zone.Catalogue] (t : Table) (withDefaults : Bool) : List (List Char) :=
  header t.version :: countLine t.columns.length :: (t.declarations withDefaults).map String.toList

theorem toList_text [Zone.Catalogue] (t : Table) (withDefaults : Bool) :
    (t.text withDefaults).toList = ['\n'].intercalate (t.lines withDefaults) ++ ['\n'] := by
  have hstring : ∀ s : String, toString s = s := fun _ => rfl
  unfold text lines header countLine
  rw [intercalate_append_lineFeed (List.cons_ne_nil _ _), List.flatMap_cons, List.flatMap_cons,
    List.flatMap_map]
  simp only [hstring, String.toList_append, String.toList_join, List.flatMap_map,
    String.toList_ofList]
  simp

section Reading

variable {version count : Nat}

theorem trim_header (version : Nat) : trim (header version) = header version := by
  have hdigits := isNumeral_nat version
  apply trim_of_ends_not_blank rfl
  unfold header
  rw [List.append_cons]
  exact getLast?_append_not_blank _ hdigits.nonempty (getLast?_not_blank_of_trim hdigits.trim)

theorem trim_countLine (count : Nat) : trim (countLine count) = countLine count := by
  have hdigits := isNumeral_nat count
  apply trim_of_ends_not_blank
  · have hfirst := head?_not_blank_of_trim hdigits.trim
    obtain ⟨d, ds, hds⟩ := List.exists_cons_of_ne_nil hdigits.nonempty
    unfold countLine
    rw [hds] at hfirst ⊢
    exact hfirst
  · unfold countLine
    rw [List.append_cons]
    exact getLast?_append_not_blank _ (by decide) (by decide)

theorem lineFeed_not_mem_header (version : Nat) : '\n' ∉ header version := by
  have hdigits : '\n' ∉ (toString version).toList :=
    not_mem_of_class (by decide) (isNumeral_nat version).chars
  unfold header
  rw [List.mem_append, List.mem_cons, not_or, not_or]
  exact ⟨by decide, by decide, hdigits⟩

theorem lineFeed_not_mem_countLine (count : Nat) : '\n' ∉ countLine count := by
  have hdigits : '\n' ∉ (toString count).toList :=
    not_mem_of_class (by decide) (isNumeral_nat count).chars
  unfold countLine
  rw [List.mem_append, List.mem_cons, not_or, not_or]
  exact ⟨hdigits, by decide, by decide⟩

theorem version_of_header (h : version ≤ maxWord32) :
    unsignedUpTo? maxWord32 (trim ((header version).drop versionLabel.length)) = some version := by
  have htrim : trim (' ' :: (toString version).toList) = (toString version).toList := by
    unfold trim
    rw [trimStart_cons_of_blank (by decide)]
    exact (isNumeral_nat version).trim
  unfold header
  rw [List.drop_left, htrim, unsignedUpTo?_toString h]

theorem countOf?_countLine (h : count ≤ maxWord64) : countOf? (countLine count) = some count := by
  have hdrop : dropLabel? countLabel (countLine count) =
      some ((toString count).toList ++ [' ']) := by
    have hfront : countLine count = ((toString count).toList ++ [' ']) ++ countLabel :=
      List.append_cons ..
    have hlength : (countLine count).length - countLabel.length =
        ((toString count).toList ++ [' ']).length := by
      rw [hfront, List.length_append, Nat.add_sub_cancel]
    unfold dropLabel?
    rw [hlength, hfront, List.drop_left, List.take_left, if_pos rfl]
  unfold countOf?
  rw [trim_countLine, hdrop, Option.bind_some, trim_append_blank (by decide),
    (isNumeral_nat count).trim, unsignedUpTo?_toString h]

variable [Zone.Catalogue]

theorem ofLines_intercalate (hversion : version ≤ maxWord32) (hcount : count ≤ maxWord64)
    (declarations : List (List Char)) :
    ofLines (['\n'].intercalate (header version :: countLine count :: declarations)) =
      match columnsOf (trimmedLines ((['\n'].intercalate declarations).splitOn '\n')) with
      | .error e => .error e
      | .ok columns =>
        if columns.length = count then .ok ⟨version, columns⟩
        else refuse (.countMismatch count columns.length) (countLine count) := by
  have hlines : linesOf (['\n'].intercalate (header version :: countLine count :: declarations)) =
      header version :: countLine count :: linesOf (['\n'].intercalate declarations) := by
    rw [linesOf_intercalate_cons (lineFeed_not_mem_header version) (trim_header version)
        (by simp [header]),
      linesOf_intercalate_cons (lineFeed_not_mem_countLine count) (trim_countLine count)
        (by simp [countLine])]
  unfold ofLines
  rw [hlines]
  dsimp only
  rw [List.headD_cons, version_of_header hversion]
  dsimp only
  rw [List.drop_one, List.tail_cons]
  dsimp only
  rw [countOf?_countLine hcount, ← trimmedLines_linesOf]
  rfl

end Reading

section Tables

variable [Zone.Catalogue] {t : Table} {withDefaults : Bool}

theorem trim_of_mem_lines {line : List Char} (h : line ∈ t.lines withDefaults) :
    trim line = line ∧ line ≠ [] := by
  unfold lines at h
  rcases List.mem_cons.1 h with rfl | h
  · exact ⟨trim_header t.version, by simp [header]⟩
  · rcases List.mem_cons.1 h with rfl | h
    · exact ⟨trim_countLine t.columns.length, by simp [countLine]⟩
    · have hpiece := isPiece_of_mem_declarations h
      exact ⟨hpiece.trimmed, hpiece.nonempty⟩

theorem exists_intercalate_lines (t : Table) (withDefaults : Bool) :
    ∃ rest, ['\n'].intercalate (t.lines withDefaults) = versionLabel ++ rest := by
  unfold lines header
  rw [List.intercalate_cons_cons, List.append_assoc, List.append_assoc]
  exact ⟨_, rfl⟩

theorem ofText_text_eq (t : Table) (withDefaults : Bool) :
    ofText (t.text withDefaults) = ofLines (['\n'].intercalate (t.lines withDefaults)) := by
  have htrim : trim (t.text withDefaults).toList = ['\n'].intercalate (t.lines withDefaults) := by
    rw [toList_text, trim_append_blank (by decide)]
    exact trim_intercalate _ (fun _ h => (trim_of_mem_lines h).1) fun _ h => (trim_of_mem_lines h).2
  obtain ⟨rest, hrest⟩ := exists_intercalate_lines t withDefaults
  have hlabel : sameLetters ((versionLabel ++ rest).take versionLabel.length) versionLabel =
      true := by
    rw [List.take_left]
    decide
  have hempty : (versionLabel ++ rest).isEmpty = false := rfl
  unfold ofText
  rw [htrim, hrest]
  dsimp only
  rw [hlabel, hempty]
  rfl

theorem ofText_text (hversion : t.version ≤ maxWord32) (hcount : t.columns.length ≤ maxWord64)
    (hnames : ∀ c ∈ t.columns, '\n' ∉ c.name.toList) :
    ofText (t.text withDefaults) = ((t.declarations withDefaults).mapM Column.ofDeclaration).map
      fun columns => ⟨t.version, columns⟩ := by
  have hpieces : ∀ cs ∈ (t.declarations withDefaults).map String.toList, Token.IsPiece ',' cs :=
    fun cs hcs => isPiece_of_mem_declarations hcs
  have hfeeds : ∀ cs ∈ (t.declarations withDefaults).map String.toList, '\n' ∉ cs := by
    intro cs hcs
    obtain ⟨c, hc, rfl⟩ := mem_declarations.1 hcs
    rw [Column.lineFeed_mem_declaration_iff]
    exact hnames c hc
  have hlines : trimmedLines ((['\n'].intercalate
      ((t.declarations withDefaults).map String.toList)).splitOn '\n') =
        (t.declarations withDefaults).map String.toList := by
    by_cases hnil : (t.declarations withDefaults).map String.toList = []
    · rw [hnil]
      rfl
    · rw [List.splitOn_intercalate '\n' hfeeds hnil]
      exact trimmedLines_of_trim (fun cs hcs => (hpieces cs hcs).trimmed)
        fun cs hcs => (hpieces cs hcs).nonempty
  have hlength : (t.declarations withDefaults).length = t.columns.length := by
    unfold declarations
    rw [List.length_map]
  rw [ofText_text_eq]
  unfold lines
  rw [ofLines_intercalate hversion hcount, hlines, columnsOf_declarations]
  cases hcolumns : (t.declarations withDefaults).mapM Column.ofDeclaration with
  | error e => rfl
  | ok columns =>
      dsimp only
      rw [if_pos ((length_of_mapM_ok hcolumns).trans hlength)]
      rfl

theorem ofText_text_of_lineFeed (hversion : t.version ≤ maxWord32)
    (hcount : t.columns.length ≤ maxWord64) {c : Column} (hc : c ∈ t.columns)
    (hname : '\n' ∈ c.name.toList) : ∃ e, ofText (t.text withDefaults) = .error e := by
  obtain ⟨front, rest, hfront, hdeclaration⟩ := Column.exists_first_line hname withDefaults
  have hopen := Declaration.section?_trimEnd (Quoted.section?_double_open front)
  have hfirst : '`' :: Quoted.double front ∈ (c.declaration withDefaults).toList.splitOn '\n' := by
    have hone : '\n' ∉ '`' :: Quoted.double front := by
      rw [List.mem_cons, Quoted.mem_double, not_or]
      exact ⟨by decide, hfront⟩
    rw [hdeclaration, List.splitOn_eq_splitOnP, List.splitOnP_append_cons _ _ (by decide),
      ← List.splitOn_eq_splitOnP, List.splitOn_eq_singleton hone]
    exact List.mem_cons_self
  have htorn : '`' :: trimEnd (Quoted.double front) ∈ trimmedLines ((['\n'].intercalate
      ((t.declarations withDefaults).map String.toList)).splitOn '\n') := by
    have htrim : trim ('`' :: Quoted.double front) = '`' :: trimEnd (Quoted.double front) := by
      unfold trim
      rw [trimStart_cons_of_not_blank (by decide), trimEnd_cons_of_not_blank (by decide)]
    have hpiece := mem_splitOn_intercalate hfirst (mem_declarations.2 ⟨c, hc, rfl⟩)
    unfold trimmedLines
    rw [List.mem_filter, ← htrim]
    exact ⟨List.mem_map_of_mem hpiece, by rw [htrim]; rfl⟩
  obtain ⟨e, he⟩ := mapM_error_iff (f := fun cs => Column.ofDeclaration (String.ofList cs)).2
    ⟨_, htorn, _, Declaration.ofDeclaration_open hopen⟩
  refine ⟨e, ?_⟩
  rw [ofText_text_eq]
  unfold lines
  rw [ofLines_intercalate hversion hcount]
  unfold columnsOf
  rw [he]

end Tables

section Zones

variable [Zone.Catalogue]

/-- A table that is read from a text or from an object. -/
def IsRead (t : Table) : Prop := (∃ s, ofText s = .ok t) ∨ ∃ json, ofJson json = .ok t

theorem IsRead.version_le {t : Table} (h : t.IsRead) : t.version ≤ maxWord32 := by
  rcases h with ⟨s, hs⟩ | ⟨json, hjson⟩
  · exact (declared_of_ofText hs).1
  · exact (configured_of_ofJson hjson).1

/-- A table that is read keeps its version and the columns of its declarations in its lines, when
every name stands on one line, and is refused otherwise. -/
theorem ofText_text_of_isRead {t : Table} (hread : t.IsRead)
    (hcount : t.columns.length ≤ maxWord64) (withDefaults : Bool) :
    ((∀ c ∈ t.columns, '\n' ∉ c.name.toList) →
        ofText (t.text withDefaults) = ((t.declarations withDefaults).mapM Column.ofDeclaration).map
          fun columns => ⟨t.version, columns⟩) ∧
      ((∃ c ∈ t.columns, '\n' ∈ c.name.toList) →
        ∃ e, ofText (t.text withDefaults) = .error e) := by
  refine ⟨ofText_text hread.version_le hcount, ?_⟩
  rintro ⟨c, hc, hname⟩
  exact ofText_text_of_lineFeed hread.version_le hcount hc hname

end Zones

def readings : Table :=
  { version := 7
    columns := [
      { name := "a`,b"
        type := .int32
        nullable := false
        length := 0
        precision := 11
        scale := 0
        zone := none
        options := []
        cell := ⟨"a`,b", .int32, .int32 0, .int32 5, 0⟩
        declared := true
        index := none }] }

theorem ofText_text_readings : readings.IsRead ∧ readings.columns.length ≤ maxWord64 ∧
    ofText (readings.text true) = ((readings.declarations true).mapM Column.ofDeclaration).map
      fun columns => ⟨readings.version, columns⟩ := by
  have hread : ofText "Columns format VERSION: 7\n 1 columns:\n\n`a``,b` Int32 default 5" =
      .ok readings := ok_of_toOption (by decide +kernel)
  have hcount : readings.columns.length ≤ maxWord64 := by decide
  have hnames : ∀ c ∈ readings.columns, '\n' ∉ c.name.toList := by decide
  exact ⟨.inl ⟨_, hread⟩, hcount,
    (ofText_text_of_isRead (.inl ⟨_, hread⟩) hcount true).1 hnames⟩

def tornJson : Json :=
  .arr [.obj [("name", .str "a\nb"), ("type", .str "Int32"), ("nullable", .bool false)]]

def torn : Table :=
  ofColumns [
    { name := "a\nb"
      type := .int32
      nullable := false
      length := 0
      precision := 11
      scale := 0
      zone := none
      options := []
      cell := Cell.new "a\nb" .int32
      declared := false
      index := none }]

/-- The declaration of its column is read, and the lines of the table are refused. -/
theorem not_ofText_text_torn : ofJson tornJson = .ok torn ∧
    (torn.declarations false).mapM Column.ofDeclaration = .ok torn.columns ∧
    ∃ e, ofText (torn.text false) = .error e := by
  have hread : ofJson tornJson = .ok torn := ok_of_toOption (by decide +kernel)
  have hcolumns : (torn.declarations false).mapM Column.ofDeclaration = .ok torn.columns :=
    ok_of_toOption (by decide +kernel)
  exact ⟨hread, hcolumns, error_of_toOption (by decide +kernel)⟩

end Table

end RowStream
