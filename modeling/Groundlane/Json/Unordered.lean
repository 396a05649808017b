import Mathlib.Data.List.Lex
import Mathlib.Data.List.Sort
import Mathlib.Data.List.Perm.Subperm
import Groundlane.Json.Tree

/-!
# JSON trees up to the order of members

Two trees are the same value when they differ in the order of members only (`Tree.Same`). Sorting
the members of all objects by their keys gives a representative: trees whose objects have every key
once are the same exactly if their representatives are equal (`Tree.canonical_eq_iff`).
-/

namespace Utf16

/-! ## Sorting by a key -/

/-- `<=` on strings, which compares code units. -/
def unitsLe (left right : Text) : Prop :=
  left.map UInt16.toNat ≤ right.map UInt16.toNat

instance : DecidableRel unitsLe := fun left right =>
  inferInstanceAs (Decidable (left.map UInt16.toNat ≤ right.map UInt16.toNat))

theorem unitsLe_antisymm {left right : Text} (h : unitsLe left right) (h' : unitsLe right left) :
    left = right :=
  List.map_injective_iff.2 (fun _ _ => UInt16.toNat_inj.1) (le_antisymm h h')

section Keyed

variable {α : Type} (key : α → Text)

/-- The element with the smaller key comes first. -/
def byKey (left right : α) : Prop := unitsLe (key left) (key right)

instance : DecidableRel (byKey key) := fun left right =>
  inferInstanceAs (Decidable (unitsLe (key left) (key right)))

instance : Std.Total (byKey key) := ⟨fun _ _ => le_total _ _⟩

instance : IsTrans α (byKey key) := ⟨fun _ _ _ h h' => le_trans h h'⟩

variable {key}

/-- Lists with the same elements are sorted alike when the keys differ. -/
theorem insertionSort_eq_iff {left right : List α} (h : (left.map key).Nodup) :
    left.insertionSort (byKey key) = right.insertionSort (byKey key) ↔ left.Perm right := by
  constructor
  · intro heq
    exact (List.perm_insertionSort _ left).symm.trans
      (heq ▸ List.perm_insertionSort (byKey key) right)
  · intro hperm
    refine List.Perm.eq_of_pairwise (fun a b ha hb hab hba => ?_)
      (List.pairwise_insertionSort _ left) (List.pairwise_insertionSort _ right)
      ((List.perm_insertionSort _ left).trans (hperm.trans (List.perm_insertionSort _ right).symm))
    have hmem : a ∈ left := (List.mem_insertionSort _).1 ha
    have hmem' : b ∈ left := hperm.mem_iff.2 ((List.mem_insertionSort _).1 hb)
    exact List.inj_on_of_nodup_map h hmem hmem' (unitsLe_antisymm hab hba)

end Keyed

namespace Tree

/-! ## The same value -/

mutual

/-- The same value: objects have members with the same keys and values, in any order. -/
def Same : Tree → Tree → Prop
  | null, null => True
  | bool value, bool value' => value = value'
  | num value, num value' => value = value'
  | str value, str value' => value = value'
  | arr items, arr items' => SameItems items items'
  | obj members, obj members' => members.length = members'.length ∧ SameMembers members members'
  | _, _ => False

/-- The same items in the same order. -/
def SameItems : List Tree → List Tree → Prop
  | [], [] => True
  | item :: rest, item' :: rest' => item.Same item' ∧ SameItems rest rest'
  | _, _ => False

/-- Every member has one with the same key and value. -/
def SameMembers : List (Text × Tree) → List (Text × Tree) → Prop
  | [], _ => True
  | (key, value) :: rest, members =>
    (∃ value', (key, value') ∈ members ∧ value.Same value') ∧ SameMembers rest members

end

mutual

/-- Every object has each of its keys once. -/
def Unique : Tree → Prop
  | arr items => UniqueItems items
  | obj members => (members.map Prod.fst).Nodup ∧ UniqueMembers members
  | _ => True

/-- The objects in the items have each of their keys once. -/
def UniqueItems : List Tree → Prop
  | [] => True
  | item :: rest => item.Unique ∧ UniqueItems rest

/-- The objects in the members have each of their keys once. -/
def UniqueMembers : List (Text × Tree) → Prop
  | [] => True
  | (_, value) :: rest => value.Unique ∧ UniqueMembers rest

end

mutual

/-- The tree with the members of all objects in the order of their keys. -/
def canonical : Tree → Tree
  | arr items => arr (canonicalItems items)
  | obj members => obj ((canonicalMembers members).insertionSort (byKey Prod.fst))
  | tree => tree

/-- The items with their members in the order of keys. -/
def canonicalItems : List Tree → List Tree
  | [] => []
  | item :: rest => item.canonical :: canonicalItems rest

/-- The members, in their own order, with the members of their values in the order of keys. -/
def canonicalMembers : List (Text × Tree) → List (Text × Tree)
  | [] => []
  | (key, value) :: rest => (key, value.canonical) :: canonicalMembers rest

end

theorem uniqueItems_iff {items : List Tree} : UniqueItems items ↔ ∀ item ∈ items, item.Unique := by
  induction items with
  | nil => exact ⟨fun _ _ h => absurd h List.not_mem_nil, fun _ => trivial⟩
  | cons item rest ih => rw [UniqueItems, ih, List.forall_mem_cons]

theorem uniqueMembers_iff {members : List (Text × Tree)} :
    UniqueMembers members ↔ ∀ member ∈ members, member.2.Unique := by
  induction members with
  | nil => exact ⟨fun _ _ h => absurd h List.not_mem_nil, fun _ => trivial⟩
  | cons member rest ih => rw [UniqueMembers, ih, List.forall_mem_cons]

theorem sameMembers_iff {members members' : List (Text × Tree)} :
    SameMembers members members' ↔ ∀ member ∈ members, ∃ value',
      (member.1, value') ∈ members' ∧ member.2.Same value' := by
  induction members with
  | nil => exact ⟨fun _ _ h => absurd h List.not_mem_nil, fun _ => trivial⟩
  | cons member rest ih => rw [SameMembers, ih, List.forall_mem_cons]

/-- A member with its value in canonical form. -/
def canonicalMember (member : Text × Tree) : Text × Tree := (member.1, member.2.canonical)

theorem canonicalMembers_eq (members : List (Text × Tree)) :
    canonicalMembers members = members.map canonicalMember := by
  induction members with
  | nil => rfl
  | cons member rest ih => rw [canonicalMembers, ih, List.map_cons, canonicalMember]

theorem keys_canonicalMembers (members : List (Text × Tree)) :
    (canonicalMembers members).map Prod.fst = members.map Prod.fst := by
  rw [canonicalMembers_eq, List.map_map]
  rfl

/-- Items are equal in canonical form when each of them is the same value. -/
theorem canonicalItems_eq_iff {items items' : List Tree}
    (h : ∀ item ∈ items, ∀ item' ∈ items', item.canonical = item'.canonical ↔ item.Same item') :
    canonicalItems items = canonicalItems items' ↔ SameItems items items' := by
  induction items generalizing items' with
  | nil =>
    cases items' with
    | nil => exact ⟨fun _ => trivial, fun _ => rfl⟩
    | cons item' rest' => exact ⟨fun heq => (nomatch heq), fun hfalse => hfalse.elim⟩
  | cons item rest ih =>
    cases items' with
    | nil => exact ⟨fun heq => (nomatch heq), fun hfalse => hfalse.elim⟩
    | cons item' rest' =>
      rw [canonicalItems, canonicalItems, List.cons.injEq, SameItems,
        h item List.mem_cons_self item' List.mem_cons_self,
        ih fun other hother other' hother' => h other (List.mem_cons_of_mem _ hother) other'
          (List.mem_cons_of_mem _ hother')]

/-- Members are the same up to their order when each of them has a counterpart. -/
theorem canonicalMembers_perm_iff {members members' : List (Text × Tree)}
    (hnodup : (members.map Prod.fst).Nodup)
    (h : ∀ member ∈ members, ∀ member' ∈ members',
      member.2.canonical = member'.2.canonical ↔ member.2.Same member'.2) :
    (canonicalMembers members).Perm (canonicalMembers members') ↔
      members.length = members'.length ∧ SameMembers members members' := by
  rw [sameMembers_iff, canonicalMembers_eq, canonicalMembers_eq]
  constructor
  · intro hperm
    refine ⟨by simpa using hperm.length_eq, fun member hmember => ?_⟩
    obtain ⟨member', hmember', heq⟩ :=
      List.mem_map.1 (hperm.subset (List.mem_map_of_mem hmember))
    obtain ⟨hkey, hvalue⟩ := Prod.mk.inj heq
    exact ⟨member'.2, hkey ▸ hmember', (h member hmember member' hmember').1 hvalue.symm⟩
  · rintro ⟨hlength, hsame⟩
    have hcanonical : (members.map canonicalMember).Nodup := by
      refine List.Nodup.of_map Prod.fst ?_
      rw [List.map_map]
      exact hnodup
    -- Every member has a counterpart, and there are no more counterparts than members.
    have hsubset : members.map canonicalMember ⊆ members'.map canonicalMember := by
      intro entry hentry
      obtain ⟨member, hmember, rfl⟩ := List.mem_map.1 hentry
      obtain ⟨value', hvalue', hsame'⟩ := hsame member hmember
      refine List.mem_map.2 ⟨_, hvalue', Prod.ext rfl ?_⟩
      exact ((h member hmember _ hvalue').2 hsame').symm
    exact (List.subperm_of_subset hcanonical hsubset).perm_of_length_le (by simp [hlength])

/-- Trees have one canonical form exactly if they are the same value. -/
theorem canonical_eq_iff {left right : Tree} (hleft : left.Unique) (hright : right.Unique) :
    left.canonical = right.canonical ↔ left.Same right := by
  induction left using induct generalizing right with
  | arr items ih =>
    cases right with
    | arr items' =>
      rw [canonical, canonical, arr.injEq, Same]
      refine canonicalItems_eq_iff fun item hitem item' hitem' => ?_
      exact ih item hitem (uniqueItems_iff.1 hleft item hitem)
        (uniqueItems_iff.1 hright item' hitem')
    | _ => exact ⟨fun heq => (nomatch heq), fun hfalse => hfalse.elim⟩
  | obj members ih =>
    cases right with
    | obj members' =>
      rw [canonical, canonical, obj.injEq, Same,
        insertionSort_eq_iff (by rw [keys_canonicalMembers]; exact hleft.1)]
      refine canonicalMembers_perm_iff hleft.1 fun member hmember member' hmember' => ?_
      exact ih member hmember (uniqueMembers_iff.1 hleft.2 member hmember)
        (uniqueMembers_iff.1 hright.2 member' hmember')
    | _ => exact ⟨fun heq => (nomatch heq), fun hfalse => hfalse.elim⟩
  | null =>
    cases right with
    | null => exact ⟨fun _ => trivial, fun _ => rfl⟩
    | _ => exact ⟨fun heq => (nomatch heq), fun hfalse => hfalse.elim⟩
  | bool value =>
    cases right with
    | bool value' => exact bool.injEq value value' ▸ Iff.rfl
    | _ => exact ⟨fun heq => (nomatch heq), fun hfalse => hfalse.elim⟩
  | num value =>
    cases right with
    | num value' => exact num.injEq value value' ▸ Iff.rfl
    | _ => exact ⟨fun heq => (nomatch heq), fun hfalse => hfalse.elim⟩
  | str value =>
    cases right with
    | str value' => exact str.injEq value value' ▸ Iff.rfl
    | _ => exact ⟨fun heq => (nomatch heq), fun hfalse => hfalse.elim⟩

end Tree

end Utf16
