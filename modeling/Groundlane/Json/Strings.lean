import Groundlane.Json.Tree
import Groundlane.Text.Width

/-!
# Finding a text in JSON

The strings and keys of a tree, and what a search in the text of the tree says about them. A text
that `JSON.stringify` escapes nothing of (`Plain`) is found in the text whenever a string or key
contains it (`infix_text_of_contains`); another one may stay hidden behind escapes.
-/

namespace Utf16

/-! ## Pieces -/

variable {pieces : List Text}

/-- A piece is part of what the pieces are joined to. -/
theorem infix_join_of_mem {separator piece : Text} (h : piece ∈ pieces) :
    piece <:+: join separator pieces := by
  induction pieces with
  | nil => exact absurd h List.not_mem_nil
  | cons first rest ih =>
    rw [join_cons]
    rcases List.mem_cons.1 h with rfl | h
    · exact (List.prefix_append _ _).isInfix
    · cases rest with
      | nil => exact absurd h List.not_mem_nil
      | cons next rest =>
        have hmore : joinMore separator (next :: rest) =
            separator ++ join separator (next :: rest) := by
          rw [join_cons]
          simp [joinMore, List.flatMap_cons]
        rw [hmore]
        exact (ih h).trans (((List.suffix_append separator _).trans
          (List.suffix_append first _)).isInfix)

/-- The code points of two texts stay apart when the second one begins with no trailing
surrogate. -/
theorem codePoints_append_of_head {left right : Text}
    (h : ∀ unit ∈ right.head?, isLow unit = false) :
    codePoints (left ++ right) = codePoints left ++ codePoints right := by
  fun_induction codePoints left with
  | case1 => rfl
  | case2 unit =>
    cases right with
    | nil => rfl
    | cons second rest =>
      show codePoints (unit :: second :: rest) = _
      rw [codePoints, if_neg (by simp [h second rfl])]
      rfl
  | case3 first second rest hpair ih =>
    show codePoints (first :: second :: (rest ++ right)) = _
    rw [codePoints, if_pos hpair, ih]
    rfl
  | case4 first second rest hpair ih =>
    show codePoints (first :: second :: (rest ++ right)) = _
    rw [codePoints, if_neg hpair]
    exact congrArg _ ih

/-- A well-formed text begins with no trailing surrogate. -/
theorem isLow_head {text : Text} (h : Utf8.isWellFormed text = true) :
    ∀ unit ∈ text.head?, isLow unit = false := by
  intro unit hunit
  cases text with
  | nil => cases hunit
  | cons first rest =>
    obtain rfl := Option.some.inj hunit
    have hall := List.all_eq_true.1 h
    cases rest with
    | nil =>
      have hpaired := hall [first] (by simp [codePoints])
      simp only [Utf8.isPaired, Bool.not_eq_true', Bool.or_eq_false_iff] at hpaired
      exact hpaired.2
    | cons second rest =>
      by_cases hpair : (isHigh first && isLow second) = true
      · -- The first unit of a pair is a leading surrogate.
        have hhigh := (Bool.and_eq_true_iff.1 hpair).1
        simp only [isHigh, isLow, Bool.and_eq_true, decide_eq_true_eq, Bool.and_eq_false_iff,
          decide_eq_false_iff_not] at hhigh ⊢
        exact .inl (UInt16.not_le.2 hhigh.2)
      · have hpaired := hall [first] (by rw [codePoints, if_neg hpair]; simp)
        simp only [Utf8.isPaired, Bool.not_eq_true', Bool.or_eq_false_iff] at hpaired
        exact hpaired.2

/-! ## What a string holds unescaped -/

/-- A unit that is not escaped, unless it is an unpaired surrogate. -/
def isPlainUnit (unit : UInt16) : Bool :=
  unit ≠ 0x22 && unit ≠ 0x5c && 0x20 ≤ unit

/-- A text that stands for itself inside a JSON string. -/
def isPlain (text : Text) : Bool :=
  Utf8.isWellFormed text && text.all isPlainUnit

/-- A code point of a plain text is not escaped. -/
theorem quotePoint_plain {point : Text} (hpoint : IsPoint point)
    (hpaired : Utf8.isPaired point = true) (hplain : ∀ unit ∈ point, isPlainUnit unit = true) :
    quotePoint point = point := by
  cases hpoint with
  | pair first second h => rfl
  | unit unit =>
    have hunit := hplain unit List.mem_cons_self
    simp only [isPlainUnit, Bool.and_eq_true, decide_eq_true_eq, ne_eq] at hunit
    simp only [Utf8.isPaired, Bool.not_eq_true'] at hpaired
    have hcontrol : ∀ small : UInt16, small < 0x20 → unit ≠ small := by
      rintro small hsmall rfl
      exact UInt16.not_le.2 hsmall hunit.2
    have hsurrogate : (unit < 0x20 || isHigh unit || isLow unit) = false := by
      rw [Bool.or_assoc, hpaired, Bool.or_false]
      exact decide_eq_false (UInt16.not_lt.2 hunit.2)
    rw [quotePoint, if_neg hunit.1.1, if_neg hunit.1.2, if_neg (hcontrol 8 (by decide)),
      if_neg (hcontrol 9 (by decide)), if_neg (hcontrol 10 (by decide)),
      if_neg (hcontrol 12 (by decide)), if_neg (hcontrol 13 (by decide)), hsurrogate,
      if_neg (by decide)]

/-- A plain part of a string is part of its JSON text. -/
theorem infix_quote {part text : Text} (hplain : isPlain part = true) (h : part <:+: text) :
    part <:+: quote text := by
  obtain ⟨before, after, rfl⟩ := h
  cases hpart : part with
  | nil => exact List.nil_infix
  | cons unit rest =>
    rw [← hpart]
    obtain ⟨hwell, hunits⟩ := Bool.and_eq_true_iff.1 hplain
    have hhead : ∀ unit ∈ (part ++ after).head?, isLow unit = false := by
      rw [hpart, List.cons_append, List.head?_cons]
      exact fun other hother => isLow_head hwell other (hpart ▸ hother)
    have hquoted : (codePoints part).flatMap quotePoint = part := by
      have hmap : (codePoints part).map quotePoint = codePoints part := by
        refine (List.map_congr_left fun point hpoint => ?_).trans (List.map_id _)
        refine quotePoint_plain (isPoint_of_mem part point hpoint)
          (List.all_eq_true.1 hwell point hpoint) fun unit hunit => ?_
        refine List.all_eq_true.1 hunits unit ?_
        rw [← flatten_codePoints part]
        exact List.mem_flatten_of_mem hpoint hunit
      rw [List.flatMap_def, hmap, flatten_codePoints]
    rw [quote, List.append_assoc before, codePoints_append_of_head hhead,
      Utf8.codePoints_append after hwell, List.flatMap_append, List.flatMap_append, hquoted]
    exact ⟨0x22 :: (codePoints before).flatMap quotePoint,
      (codePoints after).flatMap quotePoint ++ [0x22], by simp⟩

/-- No string has less units when it is quoted. -/
theorem length_le_quote (text : Text) : text.length ≤ (quote text).length := by
  have hpoints : ∀ points : List Text, (∀ point ∈ points, IsPoint point) →
      points.flatten.length ≤ (points.flatMap quotePoint).length := by
    intro points hpoints
    induction points with
    | nil => exact Nat.le_refl 0
    | cons point rest ih =>
      have hpoint : point.length ≤ (quotePoint point).length := by
        have hne := quotePoint_ne_nil (hpoints point List.mem_cons_self)
        cases hpoints point List.mem_cons_self with
        | unit unit => exact List.length_pos_of_ne_nil hne
        | pair first second h => exact Nat.le_refl 2
      have hrest := ih fun other hmem => hpoints other (List.mem_cons_of_mem _ hmem)
      rw [List.flatten_cons, List.flatMap_cons, List.length_append, List.length_append]
      omega
  have hbody := hpoints (codePoints text) (isPoint_of_mem text)
  rw [flatten_codePoints] at hbody
  rw [quote, List.length_cons, List.length_append]
  omega

namespace Tree

/-! ## The strings of a tree -/

mutual

/-- The strings and keys. -/
def strings : Tree → List Text
  | str value => [value]
  | arr items => itemStrings items
  | obj members => memberStrings members
  | _ => []

/-- The strings and keys in the items of an array. -/
def itemStrings : List Tree → List Text
  | [] => []
  | item :: rest => item.strings ++ itemStrings rest

/-- The keys of an object and the strings and keys in its values. -/
def memberStrings : List (Text × Tree) → List Text
  | [] => []
  | (key, value) :: rest => key :: value.strings ++ memberStrings rest

end

/-- A string or key of the tree contains the text. -/
def Contains (tree : Tree) (text : Text) : Prop := ∃ value ∈ tree.strings, text <:+: value

variable {value : Text} {tree : Tree}

theorem mem_itemStrings {items : List Tree} :
    value ∈ itemStrings items ↔ ∃ item ∈ items, value ∈ item.strings := by
  induction items with
  | nil => simp [itemStrings]
  | cons item rest ih => simp [itemStrings, ih]

theorem mem_memberStrings {members : List (Text × Tree)} : value ∈ memberStrings members ↔
      ∃ member ∈ members, value = member.1 ∨ value ∈ member.2.strings := by
  induction members with
  | nil => simp [memberStrings]
  | cons member rest ih => simp [memberStrings, ih, or_assoc]

/-- What is joined between brackets is part of the text. -/
private theorem infix_brackets {part piece : Text} (opening closing : UInt16)
    (hpiece : piece ∈ pieces) (h : part <:+: piece) :
    part <:+: opening :: (join [0x2c] pieces ++ [closing]) :=
  (h.trans (infix_join_of_mem hpiece)).trans ⟨[opening], [closing], rfl⟩

/-- The text of a tree contains all of its strings and keys as they are quoted. -/
theorem quote_infix_text (h : value ∈ tree.strings) : quote value <:+: tree.text := by
  induction tree using induct with
  | null => exact absurd h List.not_mem_nil
  | bool _ => exact absurd h List.not_mem_nil
  | num _ => exact absurd h List.not_mem_nil
  | str other =>
    rw [List.mem_singleton.1 h]
    exact List.infix_rfl
  | arr items ih =>
    obtain ⟨item, hitem, hvalue⟩ := mem_itemStrings.1 h
    rw [text, itemTexts_eq]
    exact infix_brackets 0x5b 0x5d (List.mem_map_of_mem hitem) (ih item hitem hvalue)
  | obj members ih =>
    obtain ⟨member, hmember, hvalue⟩ := mem_memberStrings.1 h
    rw [text, memberTexts_eq]
    refine infix_brackets 0x7b 0x7d (List.mem_map_of_mem hmember) ?_
    rcases hvalue with rfl | hvalue
    · exact (List.prefix_append _ _).isInfix
    · exact (ih member hmember hvalue).trans
        ((List.suffix_cons 0x3a member.2.text).trans (List.suffix_append _ _)).isInfix

/-- A plain text in a string or key is part of the text of the tree. -/
theorem infix_text_of_contains {part : Text} (hplain : isPlain part = true) (h : tree.Contains part)
    : part <:+: tree.text := by
  obtain ⟨value, hvalue, hinfix⟩ := h
  exact (infix_quote hplain hinfix).trans (quote_infix_text hvalue)

end Tree

end Utf16
