import Groundlane.Json.Unordered

/-!
# The canonical form of extraction results

`stableStringify` and `canonicalizeExtractionFields` of `core/schema-extraction-runtime.ts`. What
`stableStringify` writes is the JSON text of the value with all members in the order of their keys
(`stableStringify_eq`). So field results with different names have one canonical form exactly if
one list is a permutation of the other, whatever the order of the members in their values
(`canonicalizeExtractionFields_eq_iff`).
-/

namespace Groundlane.Extraction

open Utf16

/-! ## Field results -/

inductive FieldStatus where
  | present
  | missing
  | invalid
deriving DecidableEq, Repr

def FieldStatus.text : FieldStatus → String
  | present => "present"
  | missing => "missing"
  | invalid => "invalid"

/-- The result for a field, with a value of the type. -/
structure ExtractionFieldResult (α : Type) where
  name : Text
  status : FieldStatus
  value : Option α
  reason : Option Text

/-! ## The canonical form -/

mutual

/-- `stableStringify`. -/
def stableStringify : Tree → Text
  | .null => ascii "null"
  | .str value => quote value
  | .num value => ascii value.text
  | .bool value => if value then ascii "true" else ascii "false"
  | .arr items => 0x5b :: (join [0x2c] (stableItems items) ++ [0x5d])
  | .obj members =>
    let entries := (stableEntries members).insertionSort (byKey Prod.fst)
    0x7b :: (join [0x2c] (entries.map fun (key, value) => quote key ++ 0x3a :: value) ++ [0x7d])

/-- The texts of the items. -/
def stableItems : List Tree → List Text
  | [] => []
  | item :: rest => stableStringify item :: stableItems rest

/-- The keys with the texts of the values; the entries are sorted by keys afterwards. -/
def stableEntries : List (Text × Tree) → List (Text × Text)
  | [] => []
  | (key, value) :: rest => (key, stableStringify value) :: stableEntries rest

end

/-- The members of a field result in the canonical form: what is absent is written as `null`. -/
def ExtractionFieldResult.members (field : ExtractionFieldResult Tree) : List (Text × Tree) :=
  [(ascii "name", .str field.name), (ascii "reason", (field.reason.map Tree.str).getD .null),
    (ascii "status", .str (ascii field.status.text)), (ascii "value", field.value.getD .null)]

def ExtractionFieldResult.toTree (field : ExtractionFieldResult Tree) : Tree :=
  .obj field.members

def canonicalizeExtractionFields (fields : List (ExtractionFieldResult Tree)) : Text :=
  stableStringify (.arr ((fields.insertionSort (byKey ExtractionFieldResult.name)).map
    ExtractionFieldResult.toTree))

/-! ## The text of a canonical tree -/

theorem stableItems_eq (items : List Tree) : stableItems items = items.map stableStringify := by
  induction items with
  | nil => rfl
  | cons item rest ih => rw [stableItems, ih, List.map_cons]

theorem stableEntries_eq (members : List (Text × Tree)) :
    stableEntries members = members.map fun member => (member.1, stableStringify member.2) := by
  induction members with
  | nil => rfl
  | cons member rest ih => rw [stableEntries, ih, List.map_cons]

theorem canonicalItems_eq (items : List Tree) :
    Tree.canonicalItems items = items.map Tree.canonical := by
  induction items with
  | nil => rfl
  | cons item rest ih => rw [Tree.canonicalItems, ih, List.map_cons]

/-- Entries with texts are sorted as the members themselves. -/
theorem map_sorted_members {β : Type} (write : Tree → β) (members : List (Text × Tree)) :
    (members.map fun member => (member.1, write member.2)).insertionSort (byKey Prod.fst) =
      (members.insertionSort (byKey Prod.fst)).map fun member => (member.1, write member.2) :=
  (List.map_insertionSort (byKey Prod.fst) (byKey Prod.fst)
    (fun member : Text × Tree => (member.1, write member.2)) members
    fun _ _ _ _ => Iff.rfl).symm

/-- `stableStringify` writes the JSON text of the canonical tree. -/
theorem stableStringify_eq (tree : Tree) : stableStringify tree = tree.canonical.text := by
  induction tree using Tree.induct with
  | null => rfl
  | bool value => cases value <;> rfl
  | num value => rfl
  | str value => rfl
  | arr items ih =>
    rw [stableStringify, Tree.canonical, Tree.text, stableItems_eq, Tree.itemTexts_eq,
      canonicalItems_eq, List.map_map, List.map_congr_left ih]
    rfl
  | obj members ih =>
    have hentries : stableEntries members =
        members.map fun member => (member.1, member.2.canonical.text) := by
      rw [stableEntries_eq]
      exact List.map_congr_left fun member hmember => Prod.ext rfl (ih member hmember)
    have hmembers : Tree.canonicalMembers members =
        members.map fun member => (member.1, member.2.canonical) :=
      Tree.canonicalMembers_eq members
    rw [stableStringify, Tree.canonical, Tree.text, Tree.memberTexts_eq, hentries, hmembers]
    dsimp only
    rw [map_sorted_members (fun tree => tree.canonical.text), map_sorted_members, List.map_map,
      List.map_map]
    rfl

/-! ## Lists of field results -/

/-- The same result: `undefined` and `null` are not told apart, nor are orders of members. -/
structure SameResult (left right : ExtractionFieldResult Tree) : Prop where
  name : left.name = right.name
  status : left.status = right.status
  value : (left.value.getD .null).Same (right.value.getD .null)
  reason : left.reason = right.reason

/-- The value is a JSON value: its objects have each of their keys once. -/
def ExtractionFieldResult.Unique (field : ExtractionFieldResult Tree) : Prop :=
  (field.value.getD .null).Unique

theorem FieldStatus.text_injective {left right : FieldStatus}
    (h : ascii left.text = ascii right.text) : left = right := by
  cases left <;> cases right <;> first | rfl | exact absurd h (by decide)

/-- The keys of a field result differ. -/
theorem nodup_members (field : ExtractionFieldResult Tree) : (field.members.map Prod.fst).Nodup :=
  (by decide : [ascii "name", ascii "reason", ascii "status", ascii "value"].Nodup)

theorem unique_toTree {field : ExtractionFieldResult Tree} (h : field.Unique) :
    field.toTree.Unique := by
  refine ⟨nodup_members field, trivial, ?_, trivial, h, trivial⟩
  cases field.reason <;> trivial

/-- A value among the members of a field result belongs to its key. -/
theorem eq_of_mem_members {members : List (Text × Tree)} (hnodup : (members.map Prod.fst).Nodup)
    {key : Text} {value value' : Tree} (h : (key, value) ∈ members)
    (h' : (key, value') ∈ members) : value = value' :=
  (Prod.mk.inj (List.inj_on_of_nodup_map hnodup h h' rfl)).2

/-- Field results are the same exactly if they are so as values. -/
theorem same_toTree_iff {left right : ExtractionFieldResult Tree} :
    left.toTree.Same right.toTree ↔ SameResult left right := by
  have hname : (ascii "name", Tree.str right.name) ∈ right.members := List.mem_cons_self
  have hreason : (ascii "reason", (right.reason.map Tree.str).getD .null) ∈ right.members :=
    List.mem_cons_of_mem _ List.mem_cons_self
  have hstatus : (ascii "status", Tree.str (ascii right.status.text)) ∈ right.members :=
    List.mem_cons_of_mem _ (List.mem_cons_of_mem _ List.mem_cons_self)
  have hvalue : (ascii "value", right.value.getD .null) ∈ right.members :=
    List.mem_cons_of_mem _ (List.mem_cons_of_mem _ (List.mem_cons_of_mem _ List.mem_cons_self))
  constructor
  · rintro ⟨-, ⟨name, hname', hsameName⟩, ⟨reason, hreason', hsameReason⟩,
      ⟨status, hstatus', hsameStatus⟩, ⟨value, hvalue', hsameValue⟩, -⟩
    obtain rfl := eq_of_mem_members (nodup_members right) hname hname'
    obtain rfl := eq_of_mem_members (nodup_members right) hreason hreason'
    obtain rfl := eq_of_mem_members (nodup_members right) hstatus hstatus'
    obtain rfl := eq_of_mem_members (nodup_members right) hvalue hvalue'
    refine ⟨hsameName, FieldStatus.text_injective hsameStatus, hsameValue, ?_⟩
    cases hleft : left.reason with
    | none =>
      cases hright : right.reason with
      | none => rfl
      | some reason =>
        rw [hleft, hright] at hsameReason
        exact hsameReason.elim
    | some reason =>
      cases hright : right.reason with
      | none =>
        rw [hleft, hright] at hsameReason
        exact hsameReason.elim
      | some reason' =>
        rw [hleft, hright] at hsameReason
        exact congrArg some hsameReason
  · rintro ⟨hsameName, hsameStatus, hsameValue, hsameReason⟩
    refine ⟨rfl, ⟨_, hname, hsameName⟩, ⟨_, hreason, ?_⟩,
      ⟨_, hstatus, congrArg (fun status : FieldStatus => ascii status.text) hsameStatus⟩,
      ⟨_, hvalue, hsameValue⟩, trivial⟩
    rw [hsameReason]
    cases right.reason with
    | none => trivial
    | some reason => rfl

/-- The canonical trees of two field results are equal exactly if the results are the same. -/
theorem canonical_toTree_eq_iff {left right : ExtractionFieldResult Tree} (hleft : left.Unique)
    (hright : right.Unique) : left.toTree.canonical = right.toTree.canonical ↔
      SameResult left right := by
  rw [Tree.canonical_eq_iff (unique_toTree hleft) (unique_toTree hright), same_toTree_iff]

/-- The canonical form determines the canonical trees of the sorted results, and conversely. -/
theorem canonicalize_eq_iff_map (a b : List (ExtractionFieldResult Tree)) :
    canonicalizeExtractionFields a = canonicalizeExtractionFields b ↔
      (a.insertionSort (byKey ExtractionFieldResult.name)).map (fun field =>
          field.toTree.canonical) =
        (b.insertionSort (byKey ExtractionFieldResult.name)).map fun field =>
          field.toTree.canonical := by
  unfold canonicalizeExtractionFields
  rw [stableStringify_eq, stableStringify_eq, Tree.text_injective.eq_iff, Tree.canonical,
    Tree.canonical, Tree.arr.injEq, canonicalItems_eq, canonicalItems_eq, List.map_map,
    List.map_map]
  rfl

/-- A result with its name in front. -/
def entry (field : ExtractionFieldResult Tree) : Text × Tree := (field.name, field.toTree.canonical)

theorem map_entry_sorted (fields : List (ExtractionFieldResult Tree)) :
    (fields.insertionSort (byKey ExtractionFieldResult.name)).map entry =
      (fields.map entry).insertionSort (byKey Prod.fst) :=
  List.map_insertionSort _ _ entry fields fun _ _ _ _ => Iff.rfl

/-- Two lists have the same images exactly if their elements correspond one by one. -/
theorem map_eq_map_iff_forall₂ {α β : Type} {write : α → β} {r : α → α → Prop}
    {left right : List α} (h : ∀ x ∈ left, ∀ y ∈ right, write x = write y ↔ r x y) :
    left.map write = right.map write ↔ List.Forall₂ r left right := by
  induction left generalizing right with
  | nil =>
    cases right with
    | nil => exact ⟨fun _ => .nil, fun _ => rfl⟩
    | cons y right => exact ⟨fun heq => (nomatch heq), fun hforall => (nomatch hforall)⟩
  | cons x left ih =>
    cases right with
    | nil => exact ⟨fun heq => (nomatch heq), fun hforall => (nomatch hforall)⟩
    | cons y right =>
      rw [List.map_cons, List.map_cons, List.cons.injEq, List.forall₂_cons,
        h x List.mem_cons_self y List.mem_cons_self,
        ih fun a ha b hb => h a (List.mem_cons_of_mem _ ha) b (List.mem_cons_of_mem _ hb)]

/-- Two lists of field results with different names have one canonical form exactly if one of them
is a permutation of the other. -/
theorem canonicalizeExtractionFields_eq_iff (a b : List (ExtractionFieldResult Tree))
    (ha : (a.map ExtractionFieldResult.name).Nodup)
    (hvalues : ∀ field ∈ a ++ b, field.Unique) :
    canonicalizeExtractionFields a = canonicalizeExtractionFields b ↔
      ∃ c, List.Forall₂ SameResult a c ∧ c.Perm b := by
  have huniqueA : ∀ field ∈ a, field.Unique := fun field h =>
    hvalues field (List.mem_append_left b h)
  have huniqueB : ∀ field ∈ b, field.Unique := fun field h =>
    hvalues field (List.mem_append_right a h)
  rw [canonicalize_eq_iff_map]
  constructor
  · intro heq
    have hsorted : List.Forall₂ SameResult
        (a.insertionSort (byKey ExtractionFieldResult.name))
        (b.insertionSort (byKey ExtractionFieldResult.name)) :=
      (map_eq_map_iff_forall₂ fun x hx y hy => canonical_toTree_eq_iff
        (huniqueA x ((List.mem_insertionSort _).1 hx))
        (huniqueB y ((List.mem_insertionSort _).1 hy))).1 heq
    obtain ⟨c, hac, hc⟩ := List.perm_comp_forall₂ (List.perm_insertionSort _ a).symm hsorted
    exact ⟨c, hac, hc.trans (List.perm_insertionSort _ b)⟩
  · rintro ⟨c, hac, hcb⟩
    have hentry : a.map entry = c.map entry := by
      refine (map_eq_map_iff_forall₂ fun x hx y hy => ?_).2 hac
      rw [entry, entry, Prod.mk.injEq, canonical_toTree_eq_iff (huniqueA x hx)
        (huniqueB y (hcb.subset hy))]
      exact ⟨fun h => h.2, fun h => ⟨h.name, h⟩⟩
    -- Sorting the entries by name is a function of the set of entries, for the names differ.
    have hsorted : (a.map entry).insertionSort (byKey Prod.fst) =
        (b.map entry).insertionSort (byKey Prod.fst) := by
      refine (insertionSort_eq_iff ?_).2 (hentry ▸ hcb.map entry)
      rw [List.map_map]
      exact ha
    rw [← map_entry_sorted, ← map_entry_sorted] at hsorted
    have hsnd := congrArg (List.map Prod.snd) hsorted
    rw [List.map_map, List.map_map] at hsnd
    exact hsnd

/-- Two fields in two orders, one with an object whose members are in two orders. -/
theorem canonicalizeExtractionFields_eq_sample :
    canonicalizeExtractionFields
        [⟨ascii "b", .present, some (.obj [(ascii "y", .null), (ascii "x", .bool true)]), none⟩,
          ⟨ascii "a", .missing, none, some (ascii "r")⟩] =
      canonicalizeExtractionFields
        [⟨ascii "a", .missing, some .null, some (ascii "r")⟩,
          ⟨ascii "b", .present, some (.obj [(ascii "x", .bool true), (ascii "y", .null)]),
            none⟩] := by
  refine (canonicalizeExtractionFields_eq_iff _ _ (by decide) ?_).2
    ⟨[_, _], .cons ?_ (.cons ?_ .nil), List.Perm.swap _ _ _⟩
  · have hkeys : [ascii "y", ascii "x"].Nodup ∧ [ascii "x", ascii "y"].Nodup := by decide
    intro field hfield
    simp only [List.cons_append, List.nil_append, List.mem_cons, List.not_mem_nil, or_false]
      at hfield
    rcases hfield with rfl | rfl | rfl | rfl
    · exact ⟨hkeys.1, trivial, trivial, trivial⟩
    · trivial
    · trivial
    · exact ⟨hkeys.2, trivial, trivial, trivial⟩
  · refine ⟨rfl, rfl, ⟨rfl, ?_, ?_, trivial⟩, rfl⟩
    · exact ⟨.null, List.mem_cons_of_mem _ List.mem_cons_self, trivial⟩
    · exact ⟨.bool true, List.mem_cons_self, rfl⟩
  · exact ⟨rfl, rfl, trivial, rfl⟩

end Groundlane.Extraction
