import Groundlane.Parser.Contract
import Groundlane.Sequential.Checks

/-!
# Comma-separated values

`parseCsv` reads a text unit by unit with one unit of lookahead. It inverts every way to write a
table (`parseCsv_inverts`): quoted fields with their quotes doubled, other fields quoted or not,
rows ended by LF, CR or both.
-/

namespace Groundlane.Parser

open Utf16

/-- `"`. -/
def quote : UInt16 := 0x22

/-- `,`. -/
def comma : UInt16 := 0x2c

/-- LF. -/
def lf : UInt16 := 0x0a

/-- CR. -/
def cr : UInt16 := 0x0d

/-- The field ends: it becomes the last one of its row. -/
def pushField (row : List Text) (field : Text) : Parsed (List Text) :=
  if 1000 < (row ++ [field]).length then
    .error ⟨"CSV contains too many columns", "document.output_limit"⟩
  else .ok (row ++ [field])

/-- The row ends. -/
def pushRow (rows : List (List Text)) (row : List Text) : Parsed (List (List Text)) :=
  if 10000 < (rows ++ [row]).length then
    .error ⟨"CSV contains too many rows", "document.output_limit"⟩
  else .ok (rows ++ [row])

/-- The loop over the source, behind it the end of the last row. -/
def scanCsv : Text → List (List Text) → List Text → Text → Bool → Parsed (List (List Text))
  | [], rows, row, field, quoted =>
    if quoted then
      .error ⟨"Malformed CSV: unterminated quoted field", "document.malformed"⟩
    else if 0 < field.length ∨ 0 < row.length then do
      let row ← pushField row field
      pushRow rows row
    else .ok rows
  | c :: rest, rows, row, field, quoted =>
    if quoted ∧ c = quote ∧ rest.head? = some quote then
      scanCsv rest.tail rows row (field ++ [quote]) quoted
    else if c = quote then scanCsv rest rows row field (!quoted)
    else if quoted = false ∧ c = comma then do
      let row ← pushField row field
      scanCsv rest rows row [] quoted
    else if quoted = false ∧ (c = lf ∨ c = cr) then do
      let row ← pushField row field
      let rows ← pushRow rows row
      scanCsv (if c = cr ∧ rest.head? = some lf then rest.tail else rest) rows [] [] quoted
    else scanCsv rest rows row (field ++ [c]) quoted
termination_by source => source.length
decreasing_by
  all_goals simp only [List.length_cons]
  · have : rest.tail.length = rest.length - 1 := List.length_tail
    omega
  · omega
  · omega
  · split
    · have : rest.tail.length = rest.length - 1 := List.length_tail
      omega
    · omega
  · omega

/-- The fields of all rows with their places, row by row. -/
def placedCells (rows : List (List Text)) : List TableCell :=
  rows.zipIdx.flatMap fun values => values.1.zipIdx.map fun value => ⟨values.2, value.2, value.1⟩

/-- The loop that puts the cells into the table. -/
def pushCells : List TableCell → List TableCell → Parsed (List TableCell)
  | [], cells => .ok cells
  | cell :: rest, cells =>
    if maxDocumentTableCells ≤ cells.length then
      .error ⟨"Document table contains too many cells", "document.output_limit"⟩
    else pushCells rest (cells ++ [cell])

def parseCsv (source contentHash : Text) : Parsed (List DocumentBlock) := do
  let rows ← scanCsv source [] [] [] false
  let cells ← pushCells (placedCells rows) []
  pure [⟨ascii "table-1", .table cells, some (charSpan source contentHash)⟩]

/-! ## Writing a table -/

/-- A field between quotes, its own quotes doubled. -/
def doubled (field : Text) : Text :=
  field.flatMap fun unit => if unit = quote then [quote, quote] else [unit]

/-- The field can stand without quotes. -/
def Plain (field : Text) : Prop :=
  ∀ unit ∈ field, unit ≠ quote ∧ unit ≠ comma ∧ unit ≠ lf ∧ unit ≠ cr

instance (field : Text) : Decidable (Plain field) :=
  List.decidableBAll _ field

/-- The ways to write a field. -/
inductive WritesField (field : Text) : Text → Prop
  | plain (h : Plain field) : WritesField field field
  | quoted : WritesField field (quote :: (doubled field ++ [quote]))

/-- The ways to write the fields of a row. -/
inductive WritesRow : List Text → Text → Prop
  | last {field text : Text} (h : WritesField field text) : WritesRow [field] text
  | more {field text rest : Text} {fields : List Text} (h : WritesField field text)
    (hrest : WritesRow fields rest) : WritesRow (field :: fields) (text ++ comma :: rest)

/-- The ways to end a row in front of `rest`: a CR does not run together with an LF that belongs
to what follows. -/
inductive EndsRow (rest : Text) : Text → Prop
  | lf : EndsRow rest [lf]
  | cr (h : rest.head? ≠ some Parser.lf) : EndsRow rest [cr]
  | crlf : EndsRow rest [cr, Parser.lf]

/-- The ways to write a table. -/
inductive WritesTable : List (List Text) → Text → Prop
  | nil : WritesTable [] []
  | row {fields : List Text} {rows : List (List Text)} {text ending rest : Text}
    (h : WritesRow fields text) (hend : EndsRow rest ending) (hrest : WritesTable rows rest) :
    WritesTable (fields :: rows) (text ++ (ending ++ rest))

/-- The table is within the limits of the parser. -/
def WithinLimits (table : List (List Text)) : Prop :=
  (∀ row ∈ table, row.length ≤ 1000) ∧ table.length ≤ 10000 ∧
    (table.map List.length).sum ≤ 100000

/-! ## Reading what was written -/

variable {rows table : List (List Text)} {row fields : List Text} {field text rest : Text}

theorem scanCsv_unit {c : UInt16} (h : c ≠ quote ∧ c ≠ comma ∧ c ≠ lf ∧ c ≠ cr) :
    scanCsv (c :: rest) rows row field false = scanCsv rest rows row (field ++ [c]) false := by
  rw [scanCsv, if_neg (by simp), if_neg h.1, if_neg (by simp [h.2.1]), if_neg (by simp [h.2.2])]

variable {ending : Text} {cells pushed : List TableCell} {units : Text}

/-- Units that need no quotes are read as they are. -/
theorem scanCsv_plain (h : Plain units) : scanCsv (units ++ rest) rows row field false =
      scanCsv rest rows row (field ++ units) false := by
  induction units generalizing field with
  | nil => rw [List.nil_append, List.append_nil]
  | cons c units ih =>
    rw [List.cons_append, scanCsv_unit (h c (List.mem_cons_self ..)),
      ih fun unit hunit => h unit (List.mem_cons_of_mem _ hunit), List.append_assoc]
    rfl

/-- The text between quotes is read up to the closing quote. -/
theorem scanCsv_doubled (hrest : rest.head? ≠ some quote) :
    scanCsv (doubled units ++ quote :: rest) rows row field true =
      scanCsv rest rows row (field ++ units) false := by
  induction units generalizing field with
  | nil =>
    show scanCsv (quote :: rest) rows row field true = _
    rw [scanCsv, if_neg (by simp [hrest]), if_pos rfl, List.append_nil]
    rfl
  | cons c units ih =>
    have happend : field ++ c :: units = field ++ [c] ++ units := by simp
    rw [happend, ← ih]
    by_cases hc : c = quote
    · subst hc
      show scanCsv (quote :: quote :: (doubled units ++ quote :: rest)) rows row field true = _
      rw [scanCsv, if_pos ⟨rfl, rfl, rfl⟩]
      rfl
    · have hdoubled : doubled (c :: units) = c :: doubled units := by
        simp [doubled, hc]
      rw [hdoubled, List.cons_append, scanCsv, if_neg (by simp [hc]), if_neg hc,
        if_neg (by simp), if_neg (by simp)]

/-- A written field is read as the field. -/
theorem scanCsv_field (h : WritesField field text) (hrest : rest.head? ≠ some quote) :
    scanCsv (text ++ rest) rows row [] false = scanCsv rest rows row field false := by
  cases h with
  | plain h => rw [scanCsv_plain h, List.nil_append]
  | quoted =>
    rw [List.cons_append, scanCsv, if_neg (by simp), if_pos rfl, Bool.not_false, List.append_assoc]
    show scanCsv (doubled field ++ quote :: rest) rows row [] true = _
    rw [scanCsv_doubled hrest, List.nil_append]

theorem scanCsv_comma : scanCsv (comma :: rest) rows row field false =
    (pushField row field >>= fun row => scanCsv rest rows row [] false) := by
  rw [scanCsv, if_neg (by simp), if_neg (by decide), if_pos ⟨rfl, rfl⟩]

theorem scanCsv_end (h : EndsRow rest ending) : scanCsv (ending ++ rest) rows row field false =
      (pushField row field >>= fun row => pushRow rows row >>= fun rows =>
        scanCsv rest rows [] [] false) := by
  cases h with
  | lf =>
    show scanCsv (lf :: rest) rows row field false = _
    rw [scanCsv, if_neg (by simp), if_neg (by decide), if_neg (by decide),
      if_pos ⟨rfl, .inl rfl⟩, if_neg fun h => absurd h.1 (by decide)]
  | cr h =>
    show scanCsv (cr :: rest) rows row field false = _
    rw [scanCsv, if_neg (by simp), if_neg (by decide), if_neg (by decide),
      if_pos ⟨rfl, .inr rfl⟩, if_neg (by simp [h])]
  | crlf =>
    show scanCsv (cr :: lf :: rest) rows row field false = _
    rw [scanCsv, if_neg (by simp), if_neg (by decide), if_neg (by decide),
      if_pos ⟨rfl, .inr rfl⟩, if_pos ⟨rfl, rfl⟩]
    rfl

theorem EndsRow.head (h : EndsRow rest ending) (other : Text) :
    (ending ++ other).head? ≠ some quote := by
  cases h <;> simp [quote, Parser.lf, Parser.cr]

/-- A written row is read as its fields, unless it is too long or one too many. -/
theorem scanCsv_row (h : WritesRow fields text) (hend : EndsRow rest ending)
    (hrow : row.length ≤ 1000) : scanCsv (text ++ (ending ++ rest)) rows row [] false =
      if row.length + fields.length ≤ 1000 then
        pushRow rows (row ++ fields) >>= fun rows => scanCsv rest rows [] [] false
      else .error ⟨"CSV contains too many columns", "document.output_limit"⟩ := by
  induction h generalizing row with
  | @last field text hfield =>
    rw [scanCsv_field hfield (hend.head rest), scanCsv_end hend]
    by_cases hfits : row.length + [field].length ≤ 1000
    · rw [if_pos hfits, pushField, if_neg (by rw [List.length_append]; omega)]
      rfl
    · rw [if_neg hfits, pushField, if_pos (by rw [List.length_append]; omega)]
      rfl
  | @more field text others fields hfield _ ih =>
    have hcomma : (comma :: (others ++ (ending ++ rest))).head? ≠ some quote := by
      simp [comma, quote]
    rw [List.append_assoc, List.cons_append, scanCsv_field hfield hcomma, scanCsv_comma]
    by_cases hfits : row.length + 1 ≤ 1000
    · rw [pushField, if_neg (by rw [List.length_append, List.length_singleton]; omega)]
      show scanCsv (others ++ (ending ++ rest)) rows (row ++ [field]) [] false = _
      rw [ih (by rw [List.length_append, List.length_singleton]; omega), List.length_append,
        List.length_singleton, List.length_cons, List.append_assoc, List.singleton_append,
        Nat.add_assoc, Nat.add_comm 1]
    · rw [pushField, if_pos (by rw [List.length_append, List.length_singleton]; omega),
        if_neg (by rw [List.length_cons]; omega)]
      rfl

/-- A written table is read as its rows if no row is too long and there are not too many. -/
theorem scanCsv_table (h : WritesTable table text) (hrows : rows.length ≤ 10000) :
    ((∀ row ∈ table, row.length ≤ 1000) ∧ rows.length + table.length ≤ 10000 →
        scanCsv text rows [] [] false = .ok (rows ++ table)) ∧
      (¬ ((∀ row ∈ table, row.length ≤ 1000) ∧ rows.length + table.length ≤ 10000) →
        ∃ error, scanCsv text rows [] [] false = .error error ∧
          error.code = "document.output_limit") := by
  induction h generalizing rows with
  | nil =>
    refine ⟨fun _ => ?_, fun hnot => absurd ⟨nofun, hrows⟩ hnot⟩
    rw [scanCsv, List.append_nil]
    rfl
  | @row fields others text ending rest hrow hend _ ih =>
    rw [scanCsv_row hrow hend (Nat.zero_le _), List.length_nil, Nat.zero_add, List.nil_append]
    simp only [List.forall_mem_cons, List.length_cons]
    by_cases hfields : fields.length ≤ 1000
    · rw [if_pos hfields]
      by_cases hlast : rows.length + 1 ≤ 10000
      · rw [pushRow, if_neg (by rw [List.length_append, List.length_singleton]; omega)]
        show (_ → scanCsv rest (rows ++ [fields]) [] [] false = _) ∧
          (_ → ∃ error, scanCsv rest (rows ++ [fields]) [] [] false = _ ∧ _)
        have hmore : (rows ++ [fields]).length ≤ 10000 := by
          rw [List.length_append, List.length_singleton]
          omega
        obtain ⟨hread, hrefused⟩ := ih hmore
        rw [List.length_append, List.length_singleton] at hread hrefused
        constructor
        · rintro ⟨⟨-, hothers⟩, hlength⟩
          rw [hread ⟨hothers, by omega⟩, List.append_assoc, List.singleton_append]
        · intro hnot
          exact hrefused fun h => hnot ⟨⟨hfields, h.1⟩, by omega⟩
      · rw [pushRow, if_pos (by rw [List.length_append, List.length_singleton]; omega)]
        exact ⟨fun h => absurd h.2 (by omega), fun _ => ⟨_, rfl, rfl⟩⟩
    · rw [if_neg hfields]
      exact ⟨fun h => absurd h.1.1 hfields, fun _ => ⟨_, rfl, rfl⟩⟩

theorem pushCells_of_fits (h : pushed.length + cells.length ≤ maxDocumentTableCells) :
    pushCells cells pushed = .ok (pushed ++ cells) := by
  induction cells generalizing pushed with
  | nil => rw [pushCells, List.append_nil]
  | cons cell cells ih =>
    rw [List.length_cons] at h
    rw [pushCells, if_neg (by omega),
      ih (by rw [List.length_append, List.length_singleton]; omega), List.append_assoc,
      List.singleton_append]

theorem pushCells_of_exceeds (hpushed : pushed.length ≤ maxDocumentTableCells)
    (h : maxDocumentTableCells < pushed.length + cells.length) : pushCells cells pushed =
      .error ⟨"Document table contains too many cells", "document.output_limit"⟩ := by
  induction cells generalizing pushed with
  | nil =>
    rw [List.length_nil] at h
    omega
  | cons cell cells ih =>
    rw [List.length_cons] at h
    rw [pushCells]
    split
    · rfl
    · exact ih (by rw [List.length_append, List.length_singleton]; omega)
        (by rw [List.length_append, List.length_singleton]; omega)

/-- There are as many cells as fields. -/
theorem length_placedCells (rows : List (List Text)) :
    (placedCells rows).length = (rows.map List.length).sum := by
  unfold placedCells
  rw [List.length_flatMap]
  simp only [List.length_map, List.length_zipIdx]
  have hrows : rows.zipIdx.map (fun values => values.1.length) =
      (rows.zipIdx.map Prod.fst).map List.length := by
    rw [List.map_map]
    rfl
  rw [hrows, List.zipIdx_map_fst]

/-- However a table is written, `parseCsv` returns its fields at their places, in one table, if
the table is within the limits, and refuses it otherwise. -/
theorem parseCsv_inverts {source : Text} (contentHash : Text) (h : WritesTable table source) :
    (WithinLimits table → parseCsv source contentHash =
        .ok [⟨ascii "table-1", .table (table.zipIdx.flatMap fun row =>
            row.1.zipIdx.map fun field => ⟨row.2, field.2, field.1⟩),
          some (charSpan source contentHash)⟩]) ∧
      (¬ WithinLimits table → ∃ error, parseCsv source contentHash = .error error ∧
        error.code = "document.output_limit") := by
  have hnone : ([] : List (List Text)).length ≤ 10000 := Nat.zero_le _
  obtain ⟨hread, hrefused⟩ := scanCsv_table h hnone
  rw [List.length_nil, Nat.zero_add] at hread hrefused
  unfold parseCsv
  constructor
  · rintro ⟨hrows, htable, hcells⟩
    rw [hread ⟨hrows, htable⟩]
    show (pushCells (placedCells table) [] >>= _) = _
    rw [pushCells_of_fits (by
      rw [length_placedCells, List.length_nil, Nat.zero_add]
      exact hcells)]
    rfl
  · intro hnot
    by_cases hshape : (∀ row ∈ table, row.length ≤ 1000) ∧ table.length ≤ 10000
    · rw [hread hshape]
      show ∃ error, (pushCells (placedCells table) [] >>= _) = _ ∧ _
      rw [pushCells_of_exceeds (Nat.zero_le _) (by
        rw [length_placedCells, List.length_nil, Nat.zero_add]
        exact Nat.lt_of_not_le fun hcells => hnot ⟨hshape.1, hshape.2, hcells⟩)]
      exact ⟨_, rfl, rfl⟩
    · obtain ⟨error, herror, hcode⟩ := hrefused hshape
      rw [herror]
      exact ⟨error, rfl, hcode⟩

/-- A row with a plain field and one that holds a quote and a comma. -/
theorem parseCsv_inverts_sample :
    parseCsv (ascii "a,\"\"\",\"\r\n") (ascii "h") =
      .ok [⟨ascii "table-1", .table [⟨0, 0, ascii "a"⟩, ⟨0, 1, ascii "\","⟩],
        some [.charOffset 0 9 (ascii "h")]⟩] := by
  have hplain : WritesField (ascii "a") (ascii "a") := .plain (by decide +kernel)
  have hrow : WritesRow [ascii "a", ascii "\","]
      (ascii "a" ++ comma :: (quote :: (doubled (ascii "\",") ++ [quote]))) :=
    .more hplain (.last .quoted)
  have htext : ascii "a,\"\"\",\"\r\n" =
      (ascii "a" ++ comma :: (quote :: (doubled (ascii "\",") ++ [quote]))) ++ ([cr, lf] ++ []) := by
    decide +kernel
  rw [htext, (parseCsv_inverts (ascii "h") (.row hrow .crlf .nil)).1
    ⟨by decide +kernel, by decide +kernel, by decide +kernel⟩]
  decide +kernel

example : scanCsv (ascii "a,b\r\n") [] [] [] false = .ok [[ascii "a", ascii "b"]] := by
  decide +kernel

end Groundlane.Parser
