import RowStream.CommandLine.Run
import RowStream.Proofs.Column.Normal
import RowStream.Proofs.Table.Lines

/-!
# Schemas in normal form

What the command `schema` writes without defaults is a normal form: the columns that it is read as
have the same declarations. In one line it is always read again. In lines it is read again unless
the name of a column stands on two lines.
-/

namespace RowStream

open Text

namespace Table

variable [Zone.Catalogue] {t u : Table}

theorem IsRead.obtained (h : t.IsRead) : ∀ c ∈ t.columns, c.Obtained := by
  intro c hc
  rcases h with ⟨s, hs⟩ | ⟨json, hjson⟩
  · obtain ⟨-, declarations, hcolumns⟩ := declared_of_ofText hs
    obtain ⟨cs, -, hcs⟩ := exists_of_mem_mapM_ok hcolumns hc
    exact .declared hcs
  · obtain ⟨-, items, hcolumns⟩ := configured_of_ofJson hjson
    obtain ⟨item, -, hitem⟩ := exists_of_mem_mapM_ok hcolumns hc
    exact .configured hitem

theorem exists_redeclared {columns : List Column} (h : ∀ c ∈ columns, c.WellFormed) :
    ∃ again, (columns.map fun c => c.declaration false).mapM Column.ofDeclaration = .ok again ∧
      again.map (fun c => c.declaration false) = columns.map fun c => c.declaration false := by
  induction columns with
  | nil => exact ⟨[], rfl, rfl⟩
  | cons c columns ih =>
      rw [List.forall_mem_cons] at h
      obtain ⟨d, hd, -, -, hsame⟩ := h.1.exists_declared
      obtain ⟨again, hagain, hrest⟩ := ih h.2
      refine ⟨d :: again, ?_, ?_⟩
      · rw [List.map_cons, List.mapM_cons, hd, hagain]
        rfl
      · rw [List.map_cons, List.map_cons, hsame, hrest]

theorem inline_of_declarations (h : u.declarations false = t.declarations false) :
    u.inline false = t.inline false := by
  unfold inline
  rw [h]

theorem text_of_declarations (hversion : u.version = t.version)
    (h : u.declarations false = t.declarations false) : u.text false = t.text false := by
  have hlength : u.columns.length = t.columns.length := by
    have hmap := congrArg List.length h
    unfold declarations at hmap
    rwa [List.length_map, List.length_map] at hmap
  unfold text
  rw [hversion, hlength, h]

theorem ofText_lineFeed (s : String) : ofText (s ++ "\n") = ofText s := by
  have htrim : trim (s ++ "\n").toList = trim s.toList := by
    rw [String.toList_append]
    exact trim_append_blank (by decide) s.toList
  unfold ofText
  rw [htrim]

end Table

namespace CommandLine

section Zones

variable [Zone.Catalogue]

/-- What the command `schema` writes for a text. -/
def normalForm (showDefaults inline : Bool) (text : String) : Except Error String :=
  (tableOfInput text).map fun t =>
    if inline then t.inline showDefaults ++ "\n" else t.text showDefaults

theorem runSchema_eq {m : Type → Type} [Monad m] [LawfulMonad m] (w : World m)
    (settings : Settings) (input : String) (inline : Bool) :
    runSchema w settings input inline = (do
      let text ← schemaText w input
      let written ← ofOperation (normalForm settings.query.showDefaults inline text)
      w.print written) := by
  unfold runSchema
  apply bind_congr
  intro text
  unfold normalForm
  cases tableOfInput text with
  | error e => simp [ofOperation, ofResult, Except.map, Except.mapError]
  | ok t => cases inline <;> simp [ofOperation, ofResult, Except.map, Except.mapError]

theorem tableOfInput_of_head {text : String}
    (harray : (trimStart text.toList).head? ≠ some '[')
    (hobject : (trimStart text.toList).head? ≠ some '\x7b') :
    tableOfInput text = Table.ofText text := by
  unfold tableOfInput
  dsimp only
  split
  · next heq => exact absurd (congrArg List.head? heq) harray
  · next heq => exact absurd (congrArg List.head? heq) hobject
  · rfl

theorem isRead_of_tableOfInput {text : String} {t : Table} (h : tableOfInput text = .ok t) :
    t.IsRead := by
  unfold tableOfInput at h
  dsimp only at h
  split at h
  · split at h
    · exact .inr ⟨_, h⟩
    · cases h
  · split at h
    · exact .inr ⟨_, h⟩
    · cases h
  · exact .inl ⟨_, h⟩

section Written

variable {t : Table}

theorem tableOfInput_inline (t : Table) (showDefaults : Bool) :
    tableOfInput (t.inline showDefaults ++ "\n") = Table.ofText (t.inline showDefaults) := by
  rw [← Table.ofText_lineFeed]
  by_cases hcolumns : t.columns = []
  · have hempty : t.inline showDefaults = "" := by
      unfold Table.inline Table.declarations
      rw [hcolumns]
      rfl
    rw [hempty]
    exact tableOfInput_of_head (by decide) (by decide)
  · obtain ⟨rest, hrest⟩ : ∃ rest, (t.inline showDefaults).toList = '`' :: rest :=
      List.head?_eq_some_iff.1 (Table.head?_inline showDefaults hcolumns)
    have hstart : trimStart (t.inline showDefaults ++ "\n").toList = '`' :: (rest ++ ['\n']) := by
      rw [String.toList_append, hrest]
      exact trimStart_cons_of_not_blank (by decide) _
    apply tableOfInput_of_head
    · rw [hstart]
      simp
    · rw [hstart]
      simp

theorem tableOfInput_text (t : Table) (showDefaults : Bool) :
    tableOfInput (t.text showDefaults) = Table.ofText (t.text showDefaults) := by
  obtain ⟨rest, hrest⟩ := Table.exists_intercalate_lines t showDefaults
  have hstart : ∃ rest, trimStart (t.text showDefaults).toList = 'c' :: rest := by
    rw [Table.toList_text, hrest]
    exact ⟨_, trimStart_cons_of_not_blank (by decide) _⟩
  obtain ⟨rest, hstart⟩ := hstart
  apply tableOfInput_of_head
  · rw [hstart]
    simp
  · rw [hstart]
    simp

theorem normalForm_inline (h : t.IsRead) :
    normalForm false true (t.inline false ++ "\n") = .ok (t.inline false ++ "\n") := by
  obtain ⟨again, hagain, hsame⟩ := Table.exists_redeclared fun c hc => (h.obtained c hc).wellFormed
  have hread : Table.ofText (t.inline false) = .ok (Table.ofColumns again) := by
    rw [Table.ofText_inline, Table.declarations, hagain]
    rfl
  have hwritten : (Table.ofColumns again).inline false = t.inline false :=
    Table.inline_of_declarations hsame
  unfold normalForm
  rw [tableOfInput_inline, hread]
  change Except.ok ((Table.ofColumns again).inline false ++ "\n") = _
  rw [hwritten]

theorem normalForm_text (h : t.IsRead) (hcount : t.columns.length ≤ maxWord64)
    (hnames : ∀ c ∈ t.columns, '\n' ∉ c.name.toList) :
    normalForm false false (t.text false) = .ok (t.text false) := by
  obtain ⟨again, hagain, hsame⟩ := Table.exists_redeclared fun c hc => (h.obtained c hc).wellFormed
  have hread : Table.ofText (t.text false) = .ok ⟨t.version, again⟩ := by
    rw [Table.ofText_text h.version_le hcount hnames, Table.declarations, hagain]
    rfl
  have hwritten : Table.text ⟨t.version, again⟩ false = t.text false :=
    Table.text_of_declarations (by rfl) hsame
  unfold normalForm
  rw [tableOfInput_text, hread]
  change Except.ok (Table.text ⟨t.version, again⟩ false) = _
  rw [hwritten]

theorem normalForm_text_of_lineFeed (h : t.IsRead) (hcount : t.columns.length ≤ maxWord64)
    {c : Column} (hc : c ∈ t.columns) (hname : '\n' ∈ c.name.toList) :
    ∃ e, normalForm false false (t.text false) = .error e := by
  obtain ⟨e, he⟩ := Table.ofText_text_of_lineFeed h.version_le hcount hc hname
  unfold normalForm
  rw [tableOfInput_text, he]
  exact ⟨e, rfl⟩

end Written

/-- The declaration of a column without its default is a normal form. So what is written of a schema
in one line is the same when it is read and written again, and so are the lines of a schema whose
names each stand on one line. -/
theorem declaration_normal {c : Column} (h : c.Obtained) :
    (∃ d, Column.ofDeclaration (c.declaration false) = .ok d ∧ Column.DeclaredAlike c d ∧
        d.declaresDefault = false ∧ d.declaration false = c.declaration false) ∧
      (∀ text s, normalForm false true text = .ok s → normalForm false true s = .ok s) ∧
      ∀ text t, tableOfInput text = .ok t → t.columns.length ≤ maxWord64 →
        (normalForm false false (t.text false) = .ok (t.text false) ↔
          ∀ c ∈ t.columns, '\n' ∉ c.name.toList) := by
  refine ⟨h.wellFormed.exists_declared, ?_, ?_⟩
  · intro text s hs
    obtain ⟨t, ht, rfl⟩ := map_ok hs
    exact normalForm_inline (isRead_of_tableOfInput ht)
  · intro text t ht hcount
    have hread := isRead_of_tableOfInput ht
    refine ⟨?_, normalForm_text hread hcount⟩
    intro hsame c hc hname
    obtain ⟨e, he⟩ := normalForm_text_of_lineFeed hread hcount hc hname
    rw [he] at hsame
    cases hsame

end Zones

theorem declaration_normal_signal :
    Column.signal.Obtained ∧
      ∃ d, Column.ofDeclaration (Column.signal.declaration false) = .ok d ∧
        Column.DeclaredAlike Column.signal d ∧ d.declaresDefault = false ∧
        d.declaration false = Column.signal.declaration false := by
  have hread : Column.ofDeclaration "signal Enum8('off' = -1, 'on' = 1) DEFAULT on" =
      .ok Column.signal := ok_of_toOption (by decide +kernel)
  exact ⟨.declared hread, (declaration_normal (.declared hread)).1⟩

/-- The lines that are written of a schema with a name on two lines are refused. -/
theorem not_normalForm_twice :
    normalForm false false "`a\nb` Int32" =
        .ok "columns format version: 1\n1 columns:\n`a\nb` Int32\n" ∧
      ∃ e, normalForm false false "columns format version: 1\n1 columns:\n`a\nb` Int32\n" =
        .error e :=
  ⟨ok_of_toOption (by decide +kernel), error_of_toOption (by decide +kernel)⟩

end CommandLine

end RowStream
