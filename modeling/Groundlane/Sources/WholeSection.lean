import Groundlane.Sources.Fragments

/-!
# Slicing returns the whole section

Where the fragment is well-formed and the patterns of the code agree with the outline of the text,
`sliceMarkdownByHash` returns the lines of the section that the fragment names, and otherwise it
does not (`slices_section_iff`): it throws on a malformed escape (`malformed_fragment_throws`), and
the two patterns look at one line alone, so that they take a line of fenced code for a heading.
-/

namespace Groundlane.SourceDocs

open Utf16 Markdown Sections

variable (platform : Platform)

/-! ## What is claimed -/

/-- How the text is to be read: the headings outside fenced code whose slug is the target. -/
def titled (target : Text) (lines : List Text) : Reading :=
  outline (fun text => platform.slugifyHeading text = target) lines

/-- How the two patterns read the text. -/
def patterns (target : Text) (lines : List Text) : Reading where
  title i := ((lines[i]?.bind headingMatch).filter fun found =>
    platform.slugifyHeading found.2 = target).map Prod.fst
  level i := (lines[i]?.bind headingMarks).map Prod.fst

/-- The call returns the lines of the section, or the text if there is none. -/
def SlicesSection (markdown sourceUrl : Text) : Prop :=
  ∀ found, platform.urlHash sourceUrl = some found → withoutHash found ≠ [] →
    ∃ decoded, Percent.decodeURIComponent (withoutHash found) = some decoded ∧
      (∀ own start stop, IsSection (lines markdown).length
          (titled platform (platform.toLowerCase decoded) (lines markdown)) own start stop →
        sliceBounds platform (lines markdown) (platform.toLowerCase decoded) = some (start, stop) ∧
          sliceMarkdownByHash platform markdown sourceUrl =
            .ok (sliceText (lines markdown) (start, stop))) ∧
      ((∀ i < (lines markdown).length,
          (titled platform (platform.toLowerCase decoded) (lines markdown)).title i = none) →
        sliceBounds platform (lines markdown) (platform.toLowerCase decoded) = none ∧
          sliceMarkdownByHash platform markdown sourceUrl = .ok markdown)

/-- The fragment is well-formed, and the patterns agree with the outline of the text. -/
def ReadsSection (markdown sourceUrl : Text) : Prop :=
  ∀ found, platform.urlHash sourceUrl = some found → withoutHash found ≠ [] →
    ∃ decoded, Percent.decodeURIComponent (withoutHash found) = some decoded ∧
      Agrees (lines markdown).length
        (titled platform (platform.toLowerCase decoded) (lines markdown))
        (patterns platform (platform.toLowerCase decoded) (lines markdown))

variable {platform} {target : Text}

/-! ## The two loops -/

/-- The place at which the first loop stops is the first one with the title. -/
theorem startLoop_spec {all seen rest : List Text} (hall : all = seen ++ rest)
    (hseen : ∀ i < seen.length, (patterns platform target all).title i = none) :
    match startLoop platform target seen.length rest with
    | none => ∀ i < all.length, (patterns platform target all).title i = none
    | some (start, level) => start < all.length ∧
      (patterns platform target all).title start = some level ∧
        ∀ i < start, (patterns platform target all).title i = none := by
  induction rest generalizing seen with
  | nil =>
    have hlength : all.length = seen.length := by simp [hall]
    show ∀ i < all.length, _
    rwa [hlength]
  | cons line rest ih =>
    have hget : all[seen.length]? = some line := by simp [hall]
    have hnext : all = (seen ++ [line]) ++ rest := by simp [hall]
    have hlength : (seen ++ [line]).length = seen.length + 1 := by simp
    -- If this line does not have the title, the loop goes on.
    have hskip : (patterns platform target all).title seen.length = none →
        ∀ i < (seen ++ [line]).length, (patterns platform target all).title i = none := by
      intro hnone i hi
      rw [hlength] at hi
      rcases Nat.lt_or_eq_of_le (Nat.le_of_lt_succ hi) with hlt | rfl
      · exact hseen i hlt
      · exact hnone
    unfold startLoop
    cases hmatch : headingMatch line with
    | none =>
      have hstep := ih hnext (hskip (by simp [patterns, hget, hmatch]))
      rwa [hlength] at hstep
    | some found =>
      obtain ⟨_, text⟩ := found
      by_cases hslug : platform.slugifyHeading text = target
      · simp only [if_pos hslug]
        refine ⟨by simp [hall], ?_, hseen⟩
        simp [patterns, hget, hmatch, hslug]
      · simp only [if_neg hslug]
        have hstep := ih hnext (hskip (by simp [patterns, hget, hmatch, hslug]))
        rwa [hlength] at hstep

/-- The loop over all lines finds the first title. -/
theorem startLoop_all (platform : Platform) (target : Text) (all : List Text) :
    match startLoop platform target 0 all with
    | none => ∀ i < all.length, (patterns platform target all).title i = none
    | some (start, level) => start < all.length ∧
      (patterns platform target all).title start = some level ∧
        ∀ i < start, (patterns platform target all).title i = none :=
  startLoop_spec (List.nil_append all).symm fun i hi => absurd hi (Nat.not_lt_zero i)

/-- The second loop stops at the first heading of the same or a smaller level, or at the end. -/
theorem endLoop_spec (level : Nat) {all seen rest : List Text} (hall : all = seen ++ rest) :
    seen.length ≤ endLoop level seen.length rest ∧ endLoop level seen.length rest ≤ all.length ∧
      (∀ i other, seen.length ≤ i → i < endLoop level seen.length rest →
        (patterns platform target all).level i = some other → level < other) ∧
      (endLoop level seen.length rest < all.length →
        ∃ other, (patterns platform target all).level (endLoop level seen.length rest) =
          some other ∧ other ≤ level) := by
  induction rest generalizing seen with
  | nil =>
    have hlength : all.length = seen.length := by simp [hall]
    unfold endLoop
    refine ⟨Nat.le_refl _, Nat.le_of_eq hlength.symm, fun i other hle hlt => ?_, fun hlt => ?_⟩
    · omega
    · omega
  | cons line rest ih =>
    have hget : all[seen.length]? = some line := by simp [hall]
    have hnext : all = (seen ++ [line]) ++ rest := by simp [hall]
    have hlength : (seen ++ [line]).length = seen.length + 1 := by simp
    unfold endLoop
    split
    · rename_i hends
      refine ⟨Nat.le_refl _, by simp [hall], fun i other hle hlt => by omega, fun _ => ?_⟩
      cases hmarks : headingMarks line with
      | none => simp [hmarks] at hends
      | some found =>
        refine ⟨found.1, by simp [patterns, hget, hmarks], ?_⟩
        simpa [hmarks] using hends
    · rename_i hdeeper
      obtain ⟨hbehind, hwithin, hinside, hends⟩ := ih hnext
      rw [hlength] at hbehind hwithin hinside hends
      refine ⟨by omega, hwithin, fun i other hle hlt hlevel => ?_, hends⟩
      rcases Nat.lt_or_eq_of_le hle with hgt | rfl
      · exact hinside i other hgt hlt hlevel
      · cases hmarks : headingMarks line with
        | none => simp [patterns, hget, hmarks] at hlevel
        | some found =>
          have hfound : found.1 = other := by simpa [patterns, hget, hmarks] using hlevel
          have hnot : ¬ found.1 ≤ level := by simpa [hmarks] using hdeeper
          omega

/-- The bounds are those of the section that the patterns see. -/
theorem sliceBounds_eq_some {all : List Text} {start stop : Nat} :
    sliceBounds platform all target = some (start, stop) ↔
      ∃ own, IsSection all.length (patterns platform target all) own start stop := by
  have hfound : ∀ {start' level}, startLoop platform target 0 all = some (start', level) →
      IsSection all.length (patterns platform target all) level start'
        (endLoop level (start' + 1) (all.drop (start' + 1))) := by
    intro start' level hstart
    have hspec := startLoop_all platform target all
    rw [hstart] at hspec
    obtain ⟨hlt, htitle, hfirst⟩ := hspec
    have hlength : (all.take (start' + 1)).length = start' + 1 := by
      rw [List.length_take]
      omega
    have hend := @endLoop_spec platform target level _ _ _
      (List.take_append_drop (start' + 1) all).symm
    rw [hlength] at hend
    obtain ⟨_, hwithin, hinside, hends⟩ := hend
    exact ⟨htitle, hfirst, by omega, hwithin, fun i other hle hlt => hinside i other hle hlt, hends⟩
  unfold sliceBounds
  constructor
  · intro h
    cases hstart : startLoop platform target 0 all with
    | none => simp [hstart] at h
    | some found =>
      rw [hstart] at h
      obtain ⟨rfl, rfl⟩ := Prod.mk.inj (Option.some.inj h)
      exact ⟨found.2, hfound hstart⟩
  · intro h
    obtain ⟨_, his⟩ := h
    cases hstart : startLoop platform target 0 all with
    | none =>
      have hspec := startLoop_all platform target all
      rw [hstart] at hspec
      have hnone := hspec start (Nat.lt_of_lt_of_le his.behind his.within)
      rw [his.title] at hnone
      cases hnone
    | some found =>
      obtain ⟨-, hstarts, hstops⟩ := (hfound hstart).unique his
      exact congrArg some (Prod.ext hstarts hstops)

theorem sliceBounds_eq_none {all : List Text} :
    sliceBounds platform all target = none ↔
      ∀ i < all.length, (patterns platform target all).title i = none := by
  constructor
  · intro h i hi
    by_contra htitle
    obtain ⟨own, _, _, -, his⟩ := exists_isSection hi htitle
    rw [sliceBounds_eq_some.2 ⟨own, his⟩] at h
    cases h
  · intro h
    cases hbounds : sliceBounds platform all target with
    | none => rfl
    | some bounds =>
      obtain ⟨_, his⟩ := sliceBounds_eq_some.1 hbounds
      have hnone := h bounds.1 (Nat.lt_of_lt_of_le his.behind his.within)
      rw [his.title] at hnone
      cases hnone

/-! ## The two readings -/

/-- A line that both ways of reading take for a heading has one level. -/
theorem level_eq {line : Text} {heading found : Nat × Text} (h : atxHeading line = some heading)
    (hmatch : headingMatch line = some found) : heading.1 = found.1 := by
  unfold headingMatch headingMarks at hmatch
  dsimp only at hmatch
  split at hmatch
  · rename_i hmarks
    -- The line begins with a mark, so it is not indented.
    have hplain : line.dropWhile (· = 0x20) = line := by
      cases line with
      | nil => rfl
      | cons unit rest =>
        have hunit : unit = 0x23 := by
          by_contra hne
          simp [hne] at hmarks
        simp [hunit]
    unfold atxHeading unindented mark at h
    rw [hplain] at h
    split at h
    · simp only [Option.bind_some] at h
      split at h
      · obtain rfl := Option.some.inj h
        obtain ⟨_, -, rfl⟩ := Option.map_eq_some_iff.1 hmatch
        rfl
      · cases h
    · cases h
  · cases hmatch

theorem title_level (all : List Text) (i own own' : Nat)
    (h : (titled platform target all).title i = some own)
    (h' : (patterns platform target all).title i = some own') : own = own' := by
  obtain ⟨_, hheading, rfl⟩ := Option.map_eq_some_iff.1 h
  obtain ⟨_, hfound, rfl⟩ := Option.map_eq_some_iff.1 h'
  obtain ⟨_, hline, hatx⟩ :=
    atxHeading_of_headingsFrom (Option.filter_eq_some_iff.1 hheading).1
  have hmatch := (Option.filter_eq_some_iff.1 hfound).1
  rw [hline, Option.bind_some] at hmatch
  exact level_eq hatx hmatch

/-! ## The section -/

/-- The section is returned whole exactly if the fragment is well-formed and the patterns agree with
the outline of the text. -/
theorem slices_section_iff (platform : Platform) (markdown sourceUrl : Text) :
    SlicesSection platform markdown sourceUrl ↔ ReadsSection platform markdown sourceUrl := by
  unfold SlicesSection ReadsSection
  refine forall_congr' fun found => forall_congr' fun hfound => forall_congr' fun hhash =>
    exists_congr fun decoded => and_congr_right fun hdecoded => ?_
  -- What is returned follows from the bounds.
  have hwhole : sliceBounds platform (lines markdown) (platform.toLowerCase decoded) = none →
      sliceMarkdownByHash platform markdown sourceUrl = .ok markdown := by
    intro hbounds
    unfold sliceMarkdownByHash
    simp only [hfound, hdecoded, hbounds]
    exact ite_self _
  have hslice : ∀ bounds, sliceBounds platform (lines markdown) (platform.toLowerCase decoded) =
      some bounds → sliceMarkdownByHash platform markdown sourceUrl =
        .ok (sliceText (lines markdown) bounds) := by
    intro bounds hbounds
    unfold sliceMarkdownByHash
    simp only [hfound, hdecoded, hbounds]
    exact if_neg (by simpa using hhash)
  rw [← finds_iff (title_level (lines markdown))]
  unfold Finds
  refine and_congr ?_ ?_
  · refine forall_congr' fun own => forall_congr' fun start => forall_congr' fun stop =>
      forall_congr' fun his => ?_
    constructor
    · intro h
      obtain ⟨own', his'⟩ := sliceBounds_eq_some.1 h.1
      obtain rfl := title_level (lines markdown) start own own' his.title his'.title
      exact his'
    · intro h
      have hbounds := sliceBounds_eq_some.2 ⟨own, h⟩
      exact ⟨hbounds, hslice _ hbounds⟩
  · refine forall_congr' fun hnone => ?_
    constructor
    · exact fun h => sliceBounds_eq_none.1 h.1
    · intro h
      have hbounds := sliceBounds_eq_none.2 h
      exact ⟨hbounds, hwhole hbounds⟩

/-- A runtime whose URLs are cut at the first `#`, with ASCII letters only. -/
def samplePlatform : Platform where
  urlHash text := (cutAt [0x23] text).map fun parts => 0x23 :: parts.2
  lowerBeyondAscii text := text
  isLetterOrNumber _ := false

/-- A fragment with a bare percent sign makes the call throw. -/
theorem malformed_fragment_throws :
    ¬ ∀ platform markdown sourceUrl, SlicesSection platform markdown sourceUrl := by
  intro h
  obtain ⟨decoded, hdecoded, -⟩ := h samplePlatform (ascii "# 100%") (ascii "https://a.b/#100%")
    (ascii "#100%") (by decide +kernel) (by decide)
  have hnone : Percent.decodeURIComponent (withoutHash (ascii "#100%")) = none := by
    decide +kernel
  rw [hnone] at hdecoded
  cases hdecoded

/-- A comment in fenced code is taken for the heading, and the text behind its fence is cut off. -/
example : (sliceMarkdownByHash samplePlatform (ascii "```sh\n# setup\n```\n\n# Setup\n\nRead this.")
    (ascii "https://a.b/#setup")).toOption = some (ascii "# setup\n```") := by
  decide +kernel

end Groundlane.SourceDocs
