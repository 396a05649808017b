import Mathlib.Data.List.Perm.Basic
import Groundlane.Json.Strings

/-!
# Sizes of texts

A size that is counted code point by code point: the number of code units, of bytes in UTF-8, and
what they become inside a JSON string (`quoted`). The size of texts that are put together is the sum
of their sizes wherever no surrogates meet (`weigh_append`, `weigh_join`, `weigh_quote`).
-/

namespace Utf16

/-- The size of a text whose code points have the weights. -/
def weigh (weight : Text → Nat) (text : Text) : Nat :=
  ((codePoints text).map weight).sum

example : weigh List.length (ascii "ab") = 2 := by decide +kernel

/-- The number of bytes of a code point. -/
def byteLength (point : Text) : Nat := (Utf8.bytes (Utf8.scalar point)).length

/-- The weight of a code point inside a JSON string. -/
def quoted (weight : Text → Nat) (point : Text) : Nat := weigh weight (quotePoint point)

/-- The size of pieces of the sizes, joined by a separator of a size. -/
def joinWeight (separator : Nat) (weights : List Nat) : Nat :=
  weights.sum + (weights.length - 1) * separator

variable {weight : Text → Nat}

/-- The text begins with no trailing surrogate. -/
def StartsFresh (text : Text) : Prop := ∀ unit ∈ text.head?, isLow unit = false

instance (text : Text) : Decidable (StartsFresh text) :=
  decidable_of_iff (text.head?.all (fun unit => !isLow unit) = true) (by
    cases h : text.head? <;> simp [StartsFresh, h])

theorem weigh_append_fresh (left : Text) {right : Text} (h : StartsFresh right) :
    weigh weight (left ++ right) = weigh weight left + weigh weight right := by
  unfold weigh
  rw [codePoints_append_of_head h, List.map_append, List.sum_append]

theorem weigh_append {left : Text} (right : Text) (h : Utf8.isWellFormed left = true) :
    weigh weight (left ++ right) = weigh weight left + weigh weight right := by
  unfold weigh
  rw [Utf8.codePoints_append right h, List.map_append, List.sum_append]

/-- Well-formed pieces one behind the other. -/
theorem weigh_flatten {pieces : List Text} (h : ∀ piece ∈ pieces, Utf8.isWellFormed piece = true) :
    weigh weight pieces.flatten = (pieces.map (weigh weight)).sum := by
  induction pieces with
  | nil => rfl
  | cons piece rest ih =>
    rw [List.flatten_cons, weigh_append _ (h piece List.mem_cons_self), List.map_cons,
      List.sum_cons, ih fun other hmem => h other (List.mem_cons_of_mem _ hmem)]

/-- The pieces may be any texts if the separator keeps them apart. -/
theorem weigh_join {separator : Text} (hwell : Utf8.isWellFormed separator = true)
    (hne : separator ≠ []) (pieces : List Text) :
    weigh weight (join separator pieces) =
      joinWeight (weigh weight separator) (pieces.map (weigh weight)) := by
  cases pieces with
  | nil => simp [join, joinWeight, weigh, codePoints]
  | cons piece rest =>
    have hmore : ∀ rest : List Text, StartsFresh (joinMore separator rest) ∧
        weigh weight (joinMore separator rest) =
          (rest.map (weigh weight)).sum + rest.length * weigh weight separator := by
      intro rest
      induction rest with
      | nil =>
        exact ⟨fun _ hunit => absurd hunit (Option.not_mem_none _),
          by simp [joinMore, weigh, codePoints]⟩
      | cons next rest ih =>
        have hcons : joinMore separator (next :: rest) =
            separator ++ (next ++ joinMore separator rest) := by
          rw [joinMore, List.flatMap_cons, List.append_assoc]
          rfl
        constructor
        · intro unit hunit
          rw [hcons, List.head?_append_of_ne_nil _ hne] at hunit
          exact isLow_head hwell unit hunit
        · rw [hcons, weigh_append _ hwell, weigh_append_fresh _ ih.1, ih.2, List.map_cons,
            List.sum_cons, List.length_cons, Nat.succ_mul]
          omega
    obtain ⟨hfresh, hweight⟩ := hmore rest
    rw [join_cons, weigh_append_fresh _ hfresh, hweight, joinWeight, List.map_cons, List.sum_cons,
      List.length_cons, List.length_map, Nat.add_sub_cancel, Nat.add_assoc]

theorem weigh_flatMap_quotePoint {points : List Text} (h : ∀ point ∈ points, IsPoint point) :
    weigh weight (points.flatMap quotePoint) = (points.map (quoted weight)).sum := by
  rw [List.flatMap_def, weigh_flatten, List.map_map]
  · rfl
  · intro piece hpiece
    obtain ⟨point, hpoint, rfl⟩ := List.mem_map.1 hpiece
    exact isWellFormed_quotePoint (h point hpoint)

theorem weigh_quote (text : Text) :
    weigh weight (quote text) =
      weigh weight (ascii "\"") + weigh (quoted weight) text + weigh weight (ascii "\"") := by
  have hpieces : quote text =
      ascii "\"" ++ ((codePoints text).flatMap quotePoint ++ ascii "\"") := rfl
  rw [hpieces, weigh_append _ (by decide +kernel), weigh_append_fresh _ (by decide +kernel),
    weigh_flatMap_quotePoint (isPoint_of_mem text), Nat.add_assoc]
  rfl

/-! ## Code units and bytes -/

theorem weigh_length (text : Text) : weigh List.length text = text.length := by
  rw [weigh, ← List.length_flatten, flatten_codePoints]

theorem weigh_byteLength (text : Text) : weigh byteLength text = (Utf8.encode text).length := by
  rw [weigh, Utf8.encode, List.length_flatMap]
  rfl

/-! ## The order of pieces -/

theorem joinWeight_perm {separator : Nat} {left right : List Nat} (h : left.Perm right) :
    joinWeight separator left = joinWeight separator right := by
  rw [joinWeight, joinWeight, h.sum_nat, h.length_eq]

/-! ## Trees -/

theorem isWellFormed_join {separator : Text} (hwell : Utf8.isWellFormed separator = true)
    {pieces : List Text} (h : ∀ piece ∈ pieces, Utf8.isWellFormed piece = true) :
    Utf8.isWellFormed (join separator pieces) = true := by
  cases pieces with
  | nil => rfl
  | cons piece rest =>
    rw [join_cons]
    refine Utf8.isWellFormed_append (h piece List.mem_cons_self)
      (Utf8.isWellFormed_flatMap fun other hmem => ?_)
    exact Utf8.isWellFormed_append hwell (h other (List.mem_cons_of_mem _ hmem))

/-- The text of a tree is well formed, whatever its strings are. -/
theorem Tree.isWellFormed_text (tree : Tree) : Utf8.isWellFormed tree.text = true := by
  have hbrackets : ∀ (opening closing : UInt16) (pieces : List Text),
      (isHigh opening || isLow opening) = false → Utf8.isWellFormed [closing] = true →
      (∀ piece ∈ pieces, Utf8.isWellFormed piece = true) →
      Utf8.isWellFormed (opening :: (join [0x2c] pieces ++ [closing])) = true :=
    fun opening closing pieces hopening hclosing hpieces =>
      Utf8.isWellFormed_cons hopening (Utf8.isWellFormed_append
        (isWellFormed_join (by decide +kernel) hpieces) hclosing)
  induction tree using induct with
  | null => decide +kernel
  | bool value =>
    cases value with
    | true => decide +kernel
    | false => decide +kernel
  | num value => exact isWellFormed_numeral value
  | str value => exact isWellFormed_quote value
  | arr items ih =>
    rw [text, itemTexts_eq]
    refine hbrackets 0x5b 0x5d _ (by decide) (by decide +kernel) fun piece hpiece => ?_
    obtain ⟨item, hitem, rfl⟩ := List.mem_map.1 hpiece
    exact ih item hitem
  | obj members ih =>
    rw [text, memberTexts_eq]
    refine hbrackets 0x7b 0x7d _ (by decide) (by decide +kernel) fun piece hpiece => ?_
    obtain ⟨member, hmember, rfl⟩ := List.mem_map.1 hpiece
    exact Utf8.isWellFormed_append (isWellFormed_quote _)
      (Utf8.isWellFormed_cons (by decide) (ih member hmember))

end Utf16
