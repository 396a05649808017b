import Groundlane.Documents.Compare
import Mathlib.Data.List.TakeWhile

/-!
# Comparing documents by blocks

The units that `document_compare` compares. With granularity `block` the texts of the blocks are
joined by single newlines and the result is split at runs of two or more newlines
(`splitUnits_iff_pieces`), so a unit is a paragraph of the joined text and not a block. Blocks that
are inserted into a document are reported as such exactly when the paragraphs of both documents
are as many as their blocks and those of the first stand, in order, among those of the second
(`inserted_blocks_reported_iff`). Documents of blocks without newlines have one paragraph each, so
there it takes documents of at most one block (`inserted_plain_blocks_reported_iff`).
-/

namespace Groundlane.Documents

open Sequential Subsequence Utf16

/-! ## The units of a document -/

/-- The part of a `TableCell` that is compared. -/
structure TableCell where
  content : Text

/-- The parts of a `DocumentBlock` that are compared. -/
inductive DocumentBlock where
  | text (content : Text)
  | table (cells : List TableCell)
  | formula (expression : Text)
  | asset (altText : Option Text)

/-- `blockText`. -/
def blockText : DocumentBlock → Text
  | .text content => content
  | .table cells => (ascii " | ").intercalate (cells.map TableCell.content)
  | .formula expression => expression
  | .asset altText => altText.getD []

inductive Granularity where
  | line | word | block

/-- A newline. -/
abbrev newline : UInt16 := 10

/-- `split(/\n{2,}/)` behind the piece that is being read. -/
def splitBlankLines (piece : Text) : Text → List Text
  | [] => [piece]
  | unit :: rest =>
    if unit = newline ∧ rest.head? = some newline then
      piece :: splitBlankLines [] (rest.dropWhile fun unit => unit = newline)
    else splitBlankLines (piece ++ [unit]) rest
termination_by rest => rest.length
decreasing_by
  · exact Nat.lt_succ_of_le (List.dropWhile_suffix _).length_le
  · exact Nat.lt_succ_self _

/-- `splitUnits`; in the pieces between single white space, the empty ones come from longer runs. -/
def splitUnits (text : Text) : Granularity → List Text
  | .word => (text.splitOnP isWhiteSpace).filter (· ≠ [])
  | .block => (splitBlankLines [] text).filter (· ≠ [])
  | .line => text.splitOn newline

/-- `blocks.map(blockText).filter(Boolean).join("\n")`. -/
def joinedText (blocks : List DocumentBlock) : Text :=
  [newline].intercalate ((blocks.map blockText).filter (· ≠ []))

/-- The changes that `document_compare` finds between the blocks of two documents. -/
def documentCompare (a b : List DocumentBlock) (granularity : Granularity) (fuel : Nat) :
    Option (List Change) :=
  computeDiff (splitUnits (joinedText a) granularity) (splitUnits (joinedText b) granularity) fuel

/-! ## Paragraphs -/

/-- A text without two newlines in a row. -/
def NoBlank (text : Text) : Prop :=
  text.IsChain fun left right => ¬ (left = newline ∧ right = newline)

/-- The pieces of a text between its runs of two or more newlines. -/
inductive Pieces : Text → List Text → Prop
  | last {piece : Text} (hpiece : NoBlank piece) : Pieces piece [piece]
  | more {piece rest : Text} {run : Nat} {pieces : List Text} (hpiece : NoBlank piece)
    (hend : piece.getLast? ≠ some newline) (hrun : 2 ≤ run)
    (hstart : rest.head? ≠ some newline) (hrest : Pieces rest pieces) :
    Pieces (piece ++ (List.replicate run newline ++ rest)) (piece :: pieces)

/-- The paragraphs of a text are its pieces that are not empty. -/
def Paragraphs (text : Text) (paragraphs : List Text) : Prop :=
  ∃ pieces, Pieces text pieces ∧ paragraphs = pieces.filter (· ≠ [])

theorem splitBlankLines_of_noBlank (read rest : Text) (h : NoBlank rest) :
    splitBlankLines read rest = [read ++ rest] := by
  induction rest generalizing read with
  | nil => simp [splitBlankLines]
  | cons unit rest ih =>
    have hnext : ¬ (unit = newline ∧ rest.head? = some newline) := by
      rintro ⟨rfl, hhead⟩
      obtain ⟨_, tail⟩ := List.head?_eq_some_iff.1 hhead
      subst tail
      exact (List.isChain_cons_cons.1 h).1 ⟨rfl, rfl⟩
    rw [splitBlankLines, if_neg hnext, ih _ h.tail, List.append_assoc]
    rfl

theorem splitBlankLines_append {run : Nat} {rest : Text} (hrun : 2 ≤ run)
    (hstart : rest.head? ≠ some newline) (read piece : Text) (hpiece : NoBlank piece)
    (hend : piece.getLast? ≠ some newline) :
    splitBlankLines read (piece ++ (List.replicate run newline ++ rest)) =
      (read ++ piece) :: splitBlankLines [] rest := by
  induction piece generalizing read with
  | nil =>
    obtain ⟨run, rfl⟩ : ∃ n, run = n + 2 := ⟨run - 2, by omega⟩
    have hdrop : (List.replicate (run + 1) newline ++ rest).dropWhile
        (fun unit => unit = newline) = rest := by
      rw [List.dropWhile_append_of_pos (by simp)]
      cases rest with
      | nil => rfl
      | cons unit rest => exact List.dropWhile_cons_of_neg (by simpa using hstart)
    show splitBlankLines read (newline :: (List.replicate (run + 1) newline ++ rest)) = _
    rw [splitBlankLines, if_pos ⟨rfl, rfl⟩, hdrop, List.append_nil]
  | cons unit piece ih =>
    -- The piece holds no run, and its last unit does not run into the newlines behind it.
    have hnext : ¬ (unit = newline ∧
        (piece ++ (List.replicate run newline ++ rest)).head? = some newline) := by
      rintro ⟨rfl, hhead⟩
      cases piece with
      | nil => exact hend rfl
      | cons next piece => exact (List.isChain_cons_cons.1 hpiece).1 ⟨rfl, Option.some.inj hhead⟩
    have hend' : piece.getLast? ≠ some newline := by
      cases piece with
      | nil => exact nofun
      | cons next piece => simpa using hend
    rw [List.cons_append, splitBlankLines, if_neg hnext, ih _ hpiece.tail hend', List.append_assoc]
    rfl

theorem pieces_splitBlankLines (read rest : Text) (hread : NoBlank read)
    (hjoint : read.getLast? = some newline → rest.head? ≠ some newline) :
    Pieces (read ++ rest) (splitBlankLines read rest) := by
  fun_induction splitBlankLines read rest with
  | case1 read => exact (List.append_nil read).symm ▸ .last hread
  | case2 read unit rest hblank ih =>
    obtain ⟨rfl, hhead⟩ := hblank
    obtain ⟨tail, rfl⟩ := List.head?_eq_some_iff.1 hhead
    have hrest := ih .nil nofun
    rw [List.nil_append] at hrest
    -- The run is what the regular expression consumes.
    have hrun : (newline :: newline :: tail) =
        List.replicate ((tail.takeWhile fun unit => unit = newline).length + 2) newline ++
          tail.dropWhile fun unit => unit = newline := by
      have htake : tail.takeWhile (fun unit => unit = newline) =
          List.replicate (tail.takeWhile fun unit => unit = newline).length newline :=
        List.eq_replicate_iff.2 ⟨rfl, fun unit hunit => by
          simpa using List.mem_takeWhile_imp hunit⟩
      conv_lhs => rw [← List.takeWhile_append_dropWhile (p := fun unit => unit = newline)
        (l := tail), htake]
      rfl
    rw [hrun]
    refine .more hread (fun hend => hjoint hend rfl) (by omega) ?_ ?_
    · have hhead := List.head?_dropWhile_not (fun unit => unit = newline) tail
      intro hnewline
      simp [hnewline] at hhead
    · simpa using hrest
  | case3 read unit rest hnot ih =>
    rw [List.append_assoc] at ih
    refine ih (List.isChain_append.2 ⟨hread, .singleton _, ?_⟩) ?_
    · rintro last hlast next hnext ⟨rfl, rfl⟩
      exact hjoint hlast hnext
    · intro hend hhead
      exact hnot ⟨by simpa using hend, hhead⟩

/-- The code splits a text into its pieces. -/
theorem splitBlankLines_iff_pieces (text : Text) (pieces : List Text) :
    splitBlankLines [] text = pieces ↔ Pieces text pieces := by
  constructor
  · rintro rfl
    exact pieces_splitBlankLines [] text .nil nofun
  · intro h
    induction h with
    | last hpiece => exact splitBlankLines_of_noBlank [] _ hpiece
    | more hpiece hend hrun hstart _ ih =>
      rw [splitBlankLines_append hrun hstart [] _ hpiece hend, ih]
      rfl

/-- The units of granularity `block` are the paragraphs of the text. -/
theorem splitUnits_iff_paragraphs (text : Text) (units : List Text) :
    splitUnits text .block = units ↔ Paragraphs text units := by
  constructor
  · rintro rfl
    exact ⟨_, (splitBlankLines_iff_pieces text _).1 rfl, rfl⟩
  · rintro ⟨pieces, hpieces, rfl⟩
    show (splitBlankLines [] text).filter _ = _
    rw [(splitBlankLines_iff_pieces text pieces).2 hpieces]

/-! ## Inserted blocks -/

/-- `b` comes from `a` by inserting `k` blocks, and no block of them is empty. -/
structure Inserts (a b : List DocumentBlock) (k : Nat) : Prop where
  sublist : a.Sublist b
  length : b.length = a.length + k
  nonempty : ∀ block ∈ b, blockText block ≠ []

/-- The comparison reports the inserted blocks and nothing else. -/
def ReportsInsertion (a b : List DocumentBlock) (k : Nat) : Prop :=
  ∃ changes, Settles (documentCompare a b .block) changes ∧ count .added changes = k ∧
    count .removed changes = 0 ∧ count .unchanged changes = a.length

theorem length_contentsWithout_added (changes : List Change) :
    (contentsWithout .added changes).length =
      count .removed changes + count .unchanged changes := by
  induction changes using List.reverseRecOn with
  | nil => rfl
  | append_singleton changes change ih =>
    rw [contentsWithout_concat, count_concat, count_concat, List.length_append, ih]
    cases change.type <;> simp <;> omega

theorem length_contentsWithout_removed (changes : List Change) :
    (contentsWithout .removed changes).length =
      count .added changes + count .unchanged changes := by
  induction changes using List.reverseRecOn with
  | nil => rfl
  | append_singleton changes change ih =>
    rw [contentsWithout_concat, count_concat, count_concat, List.length_append, ih]
    cases change.type <;> simp <;> omega

/-- Between two lists of units, nothing is reported as removed and all of the first list as
unchanged exactly if the first list is a subsequence of the second. -/
theorem computeDiff_inserts_iff {a b : List Text} (hbound : a.length * b.length ≤ 10000000)
    (n k : Nat) :
    (∃ changes, Settles (computeDiff a b) changes ∧ count .added changes = k ∧
      count .removed changes = 0 ∧ count .unchanged changes = n) ↔
      a.length = n ∧ b.length = n + k ∧ a.Sublist b := by
  obtain ⟨changes, hsettles, ha, hb, _⟩ := computeDiff_settles a b
  obtain ⟨hsubA, hsubB, hlongest⟩ := computeLcs_spec a b
  have hlengthA := length_contentsWithout_added changes
  have hlengthB := length_contentsWithout_removed changes
  rw [ha] at hlengthA
  rw [hb] at hlengthB
  constructor
  · rintro ⟨_, hother, _, _, _⟩
    obtain rfl := hsettles.unique hother
    have hall : computeLcs a b = a := hsubA.eq_of_length_le (by omega)
    exact ⟨by omega, by omega, hall ▸ hsubB⟩
  · rintro ⟨_, _, hsub⟩
    have hall : a.length ≤ (computeLcs a b).length :=
      hlongest hbound a (List.Sublist.refl a) hsub
    have hle := hsubA.length_le
    exact ⟨changes, hsettles, by omega, by omega, by omega⟩

/-- Inserted blocks are reported as such exactly when both documents have as many paragraphs as
blocks, and those of the first stand in order among those of the second. -/
theorem inserted_blocks_reported_iff {a b : List DocumentBlock} {k : Nat} (h : Inserts a b k)
    (hbound : (splitUnits (joinedText a) .block).length *
      (splitUnits (joinedText b) .block).length ≤ 10000000) :
    ReportsInsertion a b k ↔
      ∃ unitsA unitsB, Paragraphs (joinedText a) unitsA ∧ Paragraphs (joinedText b) unitsB ∧
        unitsA.length = a.length ∧ unitsB.length = b.length ∧ unitsA.Sublist unitsB := by
  refine (computeDiff_inserts_iff hbound a.length k).trans ?_
  rw [← h.length]
  constructor
  · rintro ⟨ha, hb, hsub⟩
    exact ⟨_, _, (splitUnits_iff_paragraphs _ _).1 rfl, (splitUnits_iff_paragraphs _ _).1 rfl,
      ha, hb, hsub⟩
  · rintro ⟨unitsA, unitsB, hunitsA, hunitsB, ha, hb, hsub⟩
    rw [(splitUnits_iff_paragraphs _ _).2 hunitsA, (splitUnits_iff_paragraphs _ _).2 hunitsB]
    exact ⟨ha, hb, hsub⟩

/-- A block that starts with a newline is separated by it from the block before it. -/
theorem inserted_blocks_reported_sample :
    ReportsInsertion [.text (ascii "a")] [.text (ascii "a"), .text (ascii "\nb")] 1 ↔
      ∃ unitsA unitsB, Paragraphs (joinedText [.text (ascii "a")]) unitsA ∧
        Paragraphs (joinedText [.text (ascii "a"), .text (ascii "\nb")]) unitsB ∧
        unitsA.length = 1 ∧ unitsB.length = 2 ∧ unitsA.Sublist unitsB :=
  inserted_blocks_reported_iff
    ⟨List.Sublist.cons_cons _ (List.nil_sublist _), rfl, by decide +kernel⟩ (by decide +kernel)

/-! ## Blocks without newlines -/

theorem noBlank_of_newline_notMem {text : Text} (h : newline ∉ text) : NoBlank text :=
  List.Pairwise.isChain (List.pairwise_of_forall_mem_list fun _ hleft _ _ hboth =>
    h (hboth.1 ▸ hleft))

/-- Texts without newlines that are joined by single newlines. -/
theorem noBlank_intercalate {texts : List Text} (hnonempty : ∀ text ∈ texts, text ≠ [])
    (hplain : ∀ text ∈ texts, newline ∉ text) : NoBlank ([newline].intercalate texts) := by
  induction texts with
  | nil => exact .nil
  | cons text texts ih =>
    have htext : NoBlank text := noBlank_of_newline_notMem (hplain text List.mem_cons_self)
    specialize ih (fun other hother => hnonempty other (List.mem_cons_of_mem _ hother))
      (fun other hother => hplain other (List.mem_cons_of_mem _ hother))
    cases texts with
    | nil => simpa using htext
    | cons next texts =>
      obtain ⟨unit, _, hnext⟩ := List.exists_cons_of_ne_nil
        (hnonempty next (List.mem_cons_of_mem _ List.mem_cons_self))
      have hunit : unit ≠ newline := by
        rintro rfl
        refine hplain next (List.mem_cons_of_mem _ List.mem_cons_self) ?_
        rw [hnext]
        exact List.mem_cons_self
      rw [hnext, List.intercalate_cons_cons_left] at ih
      rw [hnext, List.intercalate_cons_cons, List.intercalate_cons_cons_left, List.append_assoc]
      refine List.isChain_append.2 ⟨htext, ?_, fun last hlast next _ hboth => ?_⟩
      · exact List.isChain_cons_cons.2 ⟨fun hboth => hunit hboth.2, ih⟩
      · exact hplain text List.mem_cons_self (hboth.1 ▸ List.mem_of_mem_getLast? hlast)

/-- Blocks without newlines make up one paragraph. -/
theorem splitUnits_of_plain {blocks : List DocumentBlock}
    (hnonempty : ∀ block ∈ blocks, blockText block ≠ [])
    (hplain : ∀ block ∈ blocks, newline ∉ blockText block) :
    splitUnits (joinedText blocks) .block = [joinedText blocks].filter (· ≠ []) := by
  have htexts : (blocks.map blockText).filter (· ≠ []) = blocks.map blockText :=
    List.filter_eq_self.2 (by simpa using hnonempty)
  have hnoBlank : NoBlank (joinedText blocks) := by
    unfold joinedText
    rw [htexts]
    exact noBlank_intercalate (by simpa using hnonempty) (by simpa using hplain)
  show (splitBlankLines [] (joinedText blocks)).filter _ = _
  rw [splitBlankLines_of_noBlank [] _ hnoBlank, List.nil_append]

/-- A document of at most one block has as many units. -/
theorem length_splitUnits_of_plain {blocks : List DocumentBlock}
    (hnonempty : ∀ block ∈ blocks, blockText block ≠ [])
    (hplain : ∀ block ∈ blocks, newline ∉ blockText block) (hone : blocks.length ≤ 1) :
    (splitUnits (joinedText blocks) .block).length = blocks.length := by
  rw [splitUnits_of_plain hnonempty hplain]
  match blocks with
  | [] => rfl
  | [block] =>
    have htext := hnonempty block List.mem_cons_self
    simp [joinedText, htext]

example : splitUnits (ascii "a\n\nb") .line = [ascii "a", [], ascii "b"] := by decide +kernel

/-- Between documents of blocks without newlines, insertion is reported as such exactly when there
is at most one block in all. -/
theorem inserted_plain_blocks_reported_iff {a b : List DocumentBlock} {k : Nat}
    (h : Inserts a b k) (hplain : ∀ block ∈ b, newline ∉ blockText block) :
    ReportsInsertion a b k ↔ b.length ≤ 1 := by
  have hunitsA := splitUnits_of_plain (fun block hblock => h.nonempty block (h.sublist.mem hblock))
    (fun block hblock => hplain block (h.sublist.mem hblock))
  have hunitsB := splitUnits_of_plain h.nonempty hplain
  have hatMostA := List.length_filter_le (· ≠ []) [joinedText a]
  have hatMostB := List.length_filter_le (· ≠ []) [joinedText b]
  rw [← hunitsA] at hatMostA
  rw [← hunitsB] at hatMostB
  have hbound : (splitUnits (joinedText a) .block).length *
      (splitUnits (joinedText b) .block).length ≤ 10000000 :=
    (Nat.mul_le_mul hatMostA hatMostB).trans (Nat.le_of_ble_eq_true rfl)
  refine (computeDiff_inserts_iff hbound a.length k).trans ?_
  rw [← h.length]
  constructor
  · rintro ⟨-, hb, -⟩
    exact hb ▸ hatMostB
  · intro hone
    have hlengthA := length_splitUnits_of_plain
      (fun block hblock => h.nonempty block (h.sublist.mem hblock))
      (fun block hblock => hplain block (h.sublist.mem hblock)) (h.sublist.length_le.trans hone)
    refine ⟨hlengthA, length_splitUnits_of_plain h.nonempty hplain hone, ?_⟩
    -- Either nothing was inserted, or the first document is empty.
    rcases Nat.eq_zero_or_pos a.length with hempty | hpos
    · rw [hempty, List.length_eq_zero_iff] at hlengthA
      exact hlengthA ▸ List.nil_sublist _
    · rw [h.sublist.eq_of_length_le (by omega)]

theorem inserted_plain_blocks_reported_iff_sample :
    ReportsInsertion [] [.text (ascii "a")] 1 ↔ [DocumentBlock.text (ascii "a")].length ≤ 1 :=
  inserted_plain_blocks_reported_iff ⟨List.nil_sublist _, rfl, by decide +kernel⟩
    (by decide +kernel)

/-- A second paragraph of a document is not reported as an insertion. -/
theorem inserted_block_hidden :
    ∃ a b : List DocumentBlock, Inserts a b 1 ∧ a.length = 1 ∧
      (splitUnits (joinedText a) .block).length *
        (splitUnits (joinedText b) .block).length ≤ 10000000 ∧
      ¬ ReportsInsertion a b 1 := by
  refine ⟨[.text (ascii "a")], [.text (ascii "a"), .text (ascii "b")],
    ⟨List.Sublist.cons_cons _ (List.nil_sublist _), rfl, by decide +kernel⟩, rfl,
    by decide +kernel, fun h => ?_⟩
  have hunits := ((computeDiff_inserts_iff (by decide +kernel) 1 1).1 h).2.1
  exact absurd hunits (by decide +kernel)

end Groundlane.Documents
