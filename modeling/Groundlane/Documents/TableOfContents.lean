import Groundlane.Ordered.Outline
import Mathlib.Data.Nat.Basic

/-!
# The tree of a table of contents

`buildTree` of `tools/document-toc.ts`: one pass over the headings with a stack of entries whose
lists of children are shared with the tree. The entries lie in the store in preorder and the stack
is the rightmost path of the tree (`Laid`), so a heading is added where an outline grows
(`Laid.insert`), and the tree is the outline of the headings (`buildTree_eq`,
`build_tree_is_faithful`, `buildTree_eq_iff`). `flattenToDepth` cuts it without breaking it.
-/

namespace Groundlane.Documents

open Outline

/-- `FlatHeading`; a `TocEntry` is a heading with children. -/
structure FlatHeading where
  id : String
  level : Nat
  title : String
  blockRef : String

/-! ## The pass over the headings -/

/-- A reference to an entry. The fields of its heading never change; its children do, so the
store holds them under the entry's address. -/
structure EntryRef where
  address : Nat
  heading : FlatHeading

/-- The variables of `buildTree`; the top of the stack comes first. -/
structure Building where
  children : List (List EntryRef)
  root : List EntryRef
  stack : List EntryRef

namespace Building

/-- One round of the loop. -/
def add (state : Building) (h : FlatHeading) : Building :=
  let entry : EntryRef := ⟨state.children.length, h⟩
  let children := state.children ++ [[]]
  match state.stack.dropWhile fun top => top.heading.level ≥ h.level with
  | [] => { children := children, root := state.root ++ [entry], stack := [entry] }
  | top :: below =>
    { children := children.modify top.address (· ++ [entry])
      root := state.root
      stack := entry :: top :: below }

/-- The tree below some references, read from the store. -/
def entries (children : List (List EntryRef)) : Nat → List EntryRef → Forest FlatHeading
  | 0, _ => .empty
  | _ + 1, [] => .empty
  | fuel + 1, entry :: rest =>
    .tree entry.heading (entries children fuel (children.getD entry.address []))
      (entries children fuel rest)

end Building

/-- `buildTree`. -/
def buildTree (headings : List FlatHeading) : Forest FlatHeading :=
  let state := headings.foldl Building.add { children := [], root := [], stack := [] }
  Building.entries state.children state.children.length state.root

/-! ## What the store holds -/

/-- The references `refs` lead to `forest`, whose entries have the addresses from `first` to
`last` in preorder; `stack` is the rightmost path. -/
inductive Laid (children : List (List EntryRef)) :
    Nat → Nat → List EntryRef → Forest FlatHeading → List EntryRef → Prop
  | empty (place : Nat) : Laid children place place [] .empty []
  | last {place after : Nat} {h : FlatHeading} {kids stack : List EntryRef}
    {below : Forest FlatHeading} (hkids : children[place]? = some kids)
    (hbelow : Laid children (place + 1) after kids below stack) :
    Laid children place after [⟨place, h⟩] (.tree h below .empty) (stack ++ [⟨place, h⟩])
  | tree {place middle after : Nat} {h : FlatHeading} {kids refs inner stack : List EntryRef}
    {next : EntryRef} {below rest : Forest FlatHeading} (hkids : children[place]? = some kids)
    (hbelow : Laid children (place + 1) middle kids below inner)
    (hrest : Laid children middle after (next :: refs) rest stack) :
    Laid children place after (⟨place, h⟩ :: next :: refs) (.tree h below rest) stack

namespace Laid

variable {children children' : List (List EntryRef)} {place after : Nat}
  {refs stack : List EntryRef} {forest : Forest FlatHeading}

theorem place_le (h : Laid children place after refs forest stack) : place ≤ after := by
  induction h with
  | empty => exact Nat.le_refl _
  | last _ _ ih => omega
  | tree _ _ _ ihbelow ihrest => omega

/-- The stack holds entries of the tree. -/
theorem of_mem_stack (h : Laid children place after refs forest stack) {entry : EntryRef}
    (hentry : entry ∈ stack) :
    (place ≤ entry.address ∧ entry.address < after) ∧ entry.heading ∈ forest.preorder := by
  induction h with
  | empty => simp at hentry
  | last hkids hbelow ih =>
    have hle := hbelow.place_le
    rcases List.mem_append.1 hentry with hentry | hentry
    · obtain ⟨hrange, hmem⟩ := ih hentry
      exact ⟨by omega, List.mem_cons_of_mem _ (List.mem_append_left _ hmem)⟩
    · obtain rfl := List.mem_singleton.1 hentry
      exact ⟨⟨Nat.le_refl _, hle⟩, List.mem_cons_self⟩
  | tree hkids hbelow hrest _ ih =>
    have hle := hbelow.place_le
    obtain ⟨hrange, hmem⟩ := ih hentry
    exact ⟨by omega, List.mem_cons_of_mem _ (List.mem_append_right _ hmem)⟩

/-- Only the entries of the tree matter. -/
theorem congr (h : Laid children place after refs forest stack)
    (hsame : ∀ address, place ≤ address → address < after →
      children'[address]? = children[address]?) :
    Laid children' place after refs forest stack := by
  induction h with
  | empty place => exact .empty place
  | last hkids hbelow ih =>
    have hle := hbelow.place_le
    refine .last ((hsame _ (Nat.le_refl _) hle).trans hkids) (ih fun address hfrom hto => ?_)
    exact hsame address (by omega) hto
  | tree hkids hbelow hrest ihbelow ihrest =>
    have hle := hbelow.place_le
    have hle' := hrest.place_le
    refine .tree ((hsame _ (Nat.le_refl _) (by omega)).trans hkids)
      (ihbelow fun address hfrom hto => ?_) (ihrest fun address hfrom hto => ?_)
    · exact hsame address (by omega) (by omega)
    · exact hsame address (by omega) hto

/-- Reading the store gives the tree. -/
theorem entries_eq (h : Laid children place after refs forest stack) {fuel : Nat}
    (hfuel : after - place ≤ fuel) : Building.entries children fuel refs = forest := by
  induction h generalizing fuel with
  | empty => cases fuel <;> rfl
  | last hkids hbelow ih =>
    have hle := hbelow.place_le
    obtain ⟨fuel, rfl⟩ : ∃ n, fuel = n + 1 := ⟨fuel - 1, by omega⟩
    have hrest : Building.entries children fuel [] = .empty := by cases fuel <;> rfl
    rw [Building.entries, List.getD_eq_getElem?_getD, hkids, Option.getD_some, ih (by omega), hrest]
  | tree hkids hbelow hrest ihbelow ihrest =>
    have hle := hbelow.place_le
    have hle' := hrest.place_le
    obtain ⟨fuel, rfl⟩ : ∃ n, fuel = n + 1 := ⟨fuel - 1, by omega⟩
    rw [Building.entries, List.getD_eq_getElem?_getD, hkids, Option.getD_some,
      ihbelow (by omega), ihrest (by omega)]

/-! ## Adding a heading -/

/-- A new entry at the end of the store changes no other. -/
theorem grow (h : Laid children place after refs forest stack)
    (hafter : after ≤ children.length) :
    Laid (children ++ [[]]) place after refs forest stack :=
  h.congr fun _ _ hto => List.getElem?_append_left (by omega)

/-- Where a heading is added, the rest of the store stays. -/
theorem attach (h : Laid children place after refs forest stack) {address : Nat}
    (haddress : address < place ∨ after ≤ address) (entry : EntryRef) :
    Laid (children.modify address (· ++ [entry])) place after refs forest stack := by
  refine h.congr fun other hfrom hto => ?_
  exact List.getElem?_modify_ne _ _ (by omega)

/-- An entry without children. -/
theorem childless {h : FlatHeading} (hkids : children[place]? = some []) :
    Laid children place (place + 1) [⟨place, h⟩] (.tree h .empty .empty) [⟨place, h⟩] :=
  .last hkids (.empty _)

/-- What lies behind an entry may be its children. -/
theorem under {h : FlatHeading} (hbelow : Laid children (place + 1) after refs forest stack)
    (hkids : children[place]? = some refs) :
    Laid children place after [⟨place, h⟩] (.tree h forest .empty) (stack ++ [⟨place, h⟩]) :=
  .last hkids hbelow

/-- The entry for the next heading has no children yet. -/
theorem single (heading : FlatHeading) (hafter : after = children.length) :
    Laid (children ++ [[]]) after (after + 1) [⟨after, heading⟩]
      (.tree heading .empty .empty) [⟨after, heading⟩] := by
  refine .childless ?_
  rw [hafter, List.getElem?_append_right (Nat.le_refl _), Nat.sub_self]
  rfl

/-- What is popped off the stack tells where the outline grows. -/
theorem insert (h : Laid children place after refs forest stack)
    (hafter : after = children.length) (hdeep : forest.Deepens FlatHeading.level)
    (heading : FlatHeading) :
    match stack.dropWhile fun top => top.heading.level ≥ heading.level with
    | [] => Laid (children ++ [[]]) place (after + 1) (refs ++ [⟨after, heading⟩])
      (forest.insert FlatHeading.level heading) [⟨after, heading⟩]
    | top :: below =>
      Laid ((children ++ [[]]).modify top.address (· ++ [(⟨after, heading⟩ : EntryRef)]))
        place (after + 1) refs (forest.insert FlatHeading.level heading)
        (⟨after, heading⟩ :: top :: below) := by
  induction h with
  | empty place => exact single heading hafter
  | @last place after h kids stack below hkids hbelow ih =>
    have hplace := hbelow.place_le
    have hkids' : (children ++ [[]])[place]? = some kids := by
      rw [List.getElem?_append_left (List.getElem?_eq_some_iff.1 hkids).1, hkids]
    specialize ih hafter hdeep.2.1
    rw [List.dropWhile_append]
    split at ih <;> rename_i hpop
    · -- Nothing below `h` stays on the stack: the new entry is its child or its sibling.
      rw [hpop, List.isEmpty_nil, if_pos rfl]
      unfold Forest.insert
      by_cases hlevel : h.level < heading.level
      · rw [List.dropWhile_cons_of_neg (by simpa using hlevel), if_pos hlevel]
        have hattached := ih.attach (.inl (Nat.lt_succ_self place)) ⟨after, heading⟩
        refine hattached.under ?_
        rw [List.getElem?_modify_eq, hkids']
        rfl
      · rw [List.dropWhile_cons_of_pos (by simpa using hlevel), if_neg hlevel]
        exact .tree hkids' (hbelow.grow (by omega)) (single heading hafter)
    · next top rest =>
        -- What stays on the stack is deeper than `h` and less deep than the heading.
        have hstays : top ∈ stack.dropWhile fun top => top.heading.level ≥ heading.level :=
          hpop ▸ List.mem_cons_self
        have htop := hbelow.of_mem_stack (List.dropWhile_subset _ hstays)
        have hdeeper : h.level ≤ top.heading.level :=
          Forest.le_preorder hdeep.2.1 (fun c hc => (hdeep.1 c hc).le) _ htop.2
        have hlower : top.heading.level < heading.level := by
          have hhead := List.head?_dropWhile_not
            (fun top : EntryRef => top.heading.level ≥ heading.level) stack
          simpa [hpop] using hhead
        unfold Forest.insert
        rw [if_pos (hdeeper.trans_lt hlower), hpop]
        refine ih.under ?_
        rw [List.getElem?_modify_ne _ _ (by omega), hkids']
  | @tree place middle after h kids refs inner stack next below rest hkids hbelow hrest _ ih =>
    have hmiddle := hrest.place_le
    have hkids' : (children ++ [[]])[place]? = some kids := by
      rw [List.getElem?_append_left (List.getElem?_eq_some_iff.1 hkids).1, hkids]
    specialize ih hafter hdeep.2.2
    cases hrest' : rest with
    | empty => subst hrest'; cases hrest
    | tree next' below' rest' =>
      subst hrest'
      split at ih <;> rename_i hpop
      · exact .tree hkids' (hbelow.grow (by omega)) ih
      · next top rest =>
        have hplace := hbelow.place_le
        have htop : middle ≤ top.address :=
          (hrest.of_mem_stack (List.dropWhile_subset _ (hpop ▸ List.mem_cons_self))).1.1
        refine .tree ?_ ((hbelow.grow (by omega)).attach (.inr htop) _) ih
        rw [List.getElem?_modify_ne _ _ (by omega), hkids']

end Laid

/-! ## The tree -/

/-- One round keeps the store in order and lets the outline grow. -/
theorem laid_add {state : Building} {forest : Forest FlatHeading}
    (h : Laid state.children 0 state.children.length state.root forest state.stack)
    (hdeep : forest.Deepens FlatHeading.level) (heading : FlatHeading) :
    Laid (state.add heading).children 0 (state.add heading).children.length
      (state.add heading).root (forest.insert FlatHeading.level heading)
      (state.add heading).stack := by
  have hinsert := h.insert rfl hdeep heading
  unfold Building.add
  dsimp only
  split at hinsert <;> simpa using hinsert

theorem laid_foldl (headings : List FlatHeading) :
    let state := headings.foldl Building.add { children := [], root := [], stack := [] }
    Laid state.children 0 state.children.length state.root
      (Forest.outline FlatHeading.level headings) state.stack := by
  induction headings using List.reverseRecOn with
  | nil => exact .empty 0
  | append_singleton headings heading ih =>
    simp only [List.foldl_append, List.foldl_cons, List.foldl_nil, Forest.outline_concat]
    exact laid_add ih (Forest.deepens_outline _ headings) heading

/-- The tree is the outline of the headings. -/
theorem buildTree_eq (headings : List FlatHeading) :
    buildTree headings = Forest.outline FlatHeading.level headings :=
  (laid_foldl headings).entries_eq (Nat.sub_le ..)

/-- In preorder the tree holds the headings as they came, levels increase from an entry to its
children, and each heading's parent is the nearest heading before it that has a smaller level. -/
theorem build_tree_is_faithful (headings : List FlatHeading) :
    (buildTree headings).preorder = headings ∧
      (buildTree headings).Deepens FlatHeading.level ∧
      ∀ place heading, headings[place]? = some heading →
        ∃ parent, ((buildTree headings).parents none 0)[place]? = some parent ∧
          Forest.Nearest FlatHeading.level (headings.take place) heading parent := by
  rw [buildTree_eq]
  exact ⟨Forest.preorder_outline _ headings, Forest.deepens_outline _ headings,
    fun _ _ hheading => Forest.parents_outline hheading⟩

/-- The trees of tables of contents are exactly those whose levels increase from an entry to its
children and do not increase from an entry to the next one, each the tree of its own headings in
preorder and of no others. -/
theorem buildTree_eq_iff (headings : List FlatHeading) (tree : Forest FlatHeading) :
    buildTree headings = tree ↔ tree.preorder = headings ∧
      tree.Deepens FlatHeading.level ∧ tree.Falls FlatHeading.level := by
  rw [buildTree_eq]
  exact Forest.outline_eq_iff

/-! ## Cutting the tree -/

/-- `flattenToDepth`. -/
def flattenToDepth (maxDepth : Nat) : Forest FlatHeading → Forest FlatHeading
  | .empty => .empty
  | .tree e children rest =>
    .tree e (if e.level < maxDepth then flattenToDepth maxDepth children else .empty)
      (flattenToDepth maxDepth rest)

variable (maxDepth : Nat) {tree : Forest FlatHeading}

theorem roots_flattenToDepth (tree : Forest FlatHeading) :
    (flattenToDepth maxDepth tree).roots = tree.roots := by
  induction tree with
  | empty => rfl
  | tree e children rest _ ih => exact congrArg (e :: ·) ih

/-- What is left is the tree of its own headings. -/
theorem levels_flattenToDepth
    (h : tree.Deepens FlatHeading.level ∧ tree.Falls FlatHeading.level) :
    (flattenToDepth maxDepth tree).Deepens FlatHeading.level ∧
      (flattenToDepth maxDepth tree).Falls FlatHeading.level := by
  induction tree with
  | empty => exact ⟨trivial, trivial⟩
  | tree e children rest ihc ihr =>
    obtain ⟨⟨hroots, hdeep, hdeep'⟩, hnext, hfall, hfall'⟩ := h
    obtain ⟨hrest, hrest'⟩ := ihr ⟨hdeep', hfall'⟩
    rw [← roots_flattenToDepth maxDepth rest] at hnext
    unfold flattenToDepth
    split
    · obtain ⟨hchildren, hchildren'⟩ := ihc ⟨hdeep, hfall⟩
      rw [← roots_flattenToDepth maxDepth children] at hroots
      exact ⟨⟨hroots, hchildren, hrest⟩, hnext, hchildren', hrest'⟩
    · exact ⟨⟨by simp [Forest.roots], trivial, hrest⟩, hnext, trivial, hrest'⟩

/-- The headings above one that is not too deep are not too deep either. -/
theorem filter_flattenToDepth (h : tree.Deepens FlatHeading.level) :
    (flattenToDepth maxDepth tree).preorder.filter (·.level ≤ maxDepth) =
      tree.preorder.filter (·.level ≤ maxDepth) := by
  induction tree with
  | empty => rfl
  | tree e children rest ihc ihr =>
    unfold flattenToDepth
    split
    · simp [List.filter_cons, ihc h.2.1, ihr h.2.2]
    · have hbelow : children.preorder.filter (·.level ≤ maxDepth) = [] := by
        refine List.filter_eq_nil_iff.2 fun c hc => ?_
        have hlt := Forest.lt_preorder h.2.1 h.1 c hc
        simpa using (Nat.le_of_not_lt ‹_›).trans_lt hlt
      simp [List.filter_cons, Forest.preorder, hbelow, ihr h.2.2]

/-- A table of contents that is cut is the one of the headings that are left, and no heading up to
the depth is cut off. -/
theorem flattenToDepth_buildTree (headings : List FlatHeading) :
    let cut := flattenToDepth maxDepth (buildTree headings)
    buildTree cut.preorder = cut ∧
      cut.preorder.filter (·.level ≤ maxDepth) = headings.filter (·.level ≤ maxDepth) := by
  obtain ⟨hpreorder, hlevels⟩ := Forest.outline_eq_iff.1 (buildTree_eq headings).symm
  refine ⟨(buildTree_eq _).trans
    (Forest.outline_eq_iff.2 ⟨rfl, levels_flattenToDepth maxDepth hlevels⟩), ?_⟩
  rw [filter_flattenToDepth maxDepth hlevels.1, hpreorder]

end Groundlane.Documents
