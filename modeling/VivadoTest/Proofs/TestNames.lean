import VivadoTest.Spec.TestPath

/-!
# `VivadoTest.Proofs.TestNames`: which tests keep their names

The names made from the paths of tests, and when no two tests share one.

* `map_replaced_eq_iff_alike`, `tbCfgName_eq_iff`: two paths become one name when they agree up to
  the characters that are neither letters nor digits.
* `simulationTestName_eq_iff`, `fpgaTestdir_eq_iff`: the two test programs find what the generator
  has written.
* `keepsApart_iff`: a set of tests is kept apart exactly when all of its paths are plain and no two
  of them are alike.
* `not_keepsApart`: two tests of one name.

## Two languages, one name

The name of a configuration is made by a shell script and looked up by a Python program, and so are
the directories of a test. The two replace the same characters on single bytes only
(`withoutSpecialChars_of_ascii`), and a shell reads a word before it uses it: it splits and expands
an unquoted path, and `echo` takes some words for options. `TestPath.Plain` says that a path
reaches the names as it is.

The shell's expansion of a pattern and Python's `isalnum` are parameters, with their documented
behaviour as hypotheses.
-/

set_option autoImplicit false

namespace VivadoTest.Spec

open VivadoTest.Lib VivadoTest.Lib.Shell VivadoTest.Generator VivadoTest.Host

variable {python : IsAlnum} {glob : PathExpansion}

/-! ### Characters -/

/-- Two characters become one when they are equal, or when neither is a letter or a digit. -/
theorem replaced_eq_iff_alike (c c' : Char) :
    replaced isNameChar c = replaced isNameChar c' ↔ Alike c c' := by
  have hreplaced : ∀ x, replaced isNameChar x = if x.isAlphanum then x else '_' := by
    intro x
    unfold replaced isNameChar
    by_cases hx : x = '_'
    · simp [hx]
    · simp [hx]
  -- a letter or digit is no underscore
  have hunderscore : ∀ x : Char, x.isAlphanum = true → x ≠ '_' := by
    rintro x hx rfl
    simp at hx
  rw [hreplaced, hreplaced]
  unfold Alike
  grind

/-- Two texts do when they agree in this way from character to character. -/
theorem map_replaced_eq_iff_alike (s t : List Char) :
    s.map (replaced isNameChar) = t.map (replaced isNameChar) ↔ List.Forall₂ Alike s t := by
  simp only [map_replaced_eq_iff, replaced_eq_iff_alike]

/-- On single bytes the two programs replace the same characters. -/
theorem withoutSpecialChars_of_ascii {text : List Char} (h : ∀ c ∈ text, c.utf8Size = 1) :
    withoutSpecialChars python text = text.map (replaced isNameChar) := by
  refine List.map_congr_left fun c hc => ?_
  unfold replaced isNameChar
  simp only [python.ascii c (h c hc)]

/-- The replacement makes no slash. -/
theorem slash_notMem_replaced (isKept : Char → Bool) {text : List Char}
    (h : isKept '/' = false ∨ '/' ∉ text) : '/' ∉ text.map (replaced isKept) := by
  intro hmem
  obtain ⟨c, hc, heq⟩ := List.mem_map.mp hmem
  unfold replaced at heq
  split at heq
  · subst heq
    rcases h with h | h
    · simp_all
    · exact h hc
  · simp at heq

/-- A normalized name has no slash in it, so it is a single path component. -/
theorem slash_notMem_normalize (text : List Char) : '/' ∉ Generator.normalize text :=
  slash_notMem_replaced isNameChar (Or.inl rfl)

/-! ### The parts of a path -/

/-- Joined names end in one of them. -/
theorem exists_suffix_intercalate (sep : List Char) {groups : List (List Char)} (h : groups ≠ []) :
    ∃ g ∈ groups, g <:+ sep.intercalate groups := by
  induction groups with
  | nil => exact absurd rfl h
  | cons g groups ih =>
    cases groups with
    | nil => exact ⟨g, List.mem_cons_self, by simp⟩
    | cons g' groups =>
      obtain ⟨last, hlast, hsuffix⟩ := ih (List.cons_ne_nil _ _)
      refine ⟨last, List.mem_cons_of_mem g hlast, hsuffix.trans ?_⟩
      rw [List.intercalate_cons_cons]
      exact (List.suffix_append sep _).trans (by simp)

namespace TestPath

variable (t : TestPath)

/-- The directory ends in a character of a group. -/
theorem exists_dir_getLast? : ∃ c, t.dir.getLast? = some c ∧ c ≠ '/' := by
  obtain ⟨g, hg, init, hdir⟩ := exists_suffix_intercalate ['/'] t.groups_ne
  obtain ⟨⟨hne, -, hslash⟩, -⟩ := t.entries g hg
  refine ⟨g.getLast hne, ?_, fun h => hslash (h ▸ List.getLast_mem hne)⟩
  unfold dir
  rw [← hdir, List.getLast?_append_of_ne_nil _ hne, List.getLast?_eq_getLast_of_ne_nil hne]

/-- The directory of a test path is not empty: a test is in some group. -/
theorem dir_ne : t.dir ≠ [] := by
  obtain ⟨c, hc, -⟩ := t.exists_dir_getLast?
  intro h
  simp [h] at hc

/-- It does not end in a slash. -/
theorem dir_getLast? : t.dir.getLast? ≠ some '/' := by
  obtain ⟨c, hc, hslash⟩ := t.exists_dir_getLast?
  rw [hc]
  simpa using hslash

/-- The path without its extension has the slash in front of the base name. -/
theorem slash_mem_stem : '/' ∈ t.stem := List.mem_append_right _ List.mem_cons_self

/-- A path by its parts. -/
theorem path_eq : t.path = t.dir ++ '/' :: (t.base ++ ".test".toList) := by
  unfold path stem
  rw [List.append_assoc, List.cons_append]

/-- The last part of it has no slash. -/
theorem base_suffix_slash : '/' ∉ t.base ++ ".test".toList := by
  have := t.base_slash
  simp_all

/-- Python's `dirname` of a test path. -/
theorem dirname_path : dirname t.path = t.dir := by
  rw [path_eq, dirname_append t.dir_ne t.dir_getLast? t.base_suffix_slash]

/-- The directory as the shell has it, the same one. -/
theorem directory_path : directory t.path = t.dir := by
  rw [path_eq, directory_append t.dir_ne t.dir_getLast? t.base_suffix_slash]

/-- The last field between slashes. -/
theorem lastField_path : lastField t.path = t.base ++ ".test".toList := by
  rw [path_eq, lastField_append t.base_suffix_slash]

/-- `basename` takes the extension off, except from a file that has no other name. -/
theorem basename_path : basename t.path ".test".toList =
    if t.base = [] then ".test".toList else t.base := by
  rw [path_eq, basename_append t.base_slash (by decide)]

/-- A path with a slash in it is no option. -/
theorem tbCfgName_path : tbCfgName t.path = (bytes t.stem).map (replaced isNameChar) := by
  unfold tbCfgName Generator.normalize echo trComplement path
  rw [stripSuffix_append, isEchoOption_eq_false (by decide) t.slash_mem_stem]
  rfl

/-- Two paths of single bytes have one configuration name exactly when they are alike. -/
theorem tbCfgName_eq_iff {t t' : TestPath} (h : ∀ c ∈ t.stem, c.utf8Size = 1)
    (h' : ∀ c ∈ t'.stem, c.utf8Size = 1) :
    tbCfgName t.path = tbCfgName t'.path ↔ List.Forall₂ Alike t.stem t'.stem := by
  rw [tbCfgName_path, tbCfgName_path, bytes_of_ascii h, bytes_of_ascii h',
    map_replaced_eq_iff_alike]

end TestPath

/-! ### The two programs -/

section
variable (t : TestPath)

/-- The simulation of a test has the name of its configuration exactly when the path consists of
single bytes. -/
theorem simulationTestName_eq_iff :
    simulationTestName python t.path = tbCfgName t.path ↔ ∀ c ∈ t.stem, c.utf8Size = 1 := by
  have hstem : t.path.rdrop 5 = t.stem := by simp [TestPath.path, List.rdrop]
  unfold simulationTestName
  rw [t.tbCfgName_path, hstem]
  constructor
  · -- one character of the one for each byte of the other
    intro h
    have hlength := congrArg List.length h
    simp only [withoutSpecialChars, List.length_map] at hlength
    exact ascii_of_length_bytes.2 hlength.symm
  · intro h
    rw [withoutSpecialChars_of_ascii h, bytes_of_ascii h]

/-- Within a path of single bytes, the files of a test are where they are looked for exactly when
the directory and the word that the shell makes of the base name are unharmed. -/
theorem fpgaTestdir_eq_iff (hascii : ∀ c ∈ t.stem, c.utf8Size = 1) :
    fpgaTestdir python t.path = fpgaTestDir glob t.path ↔ t.Plain glob := by
  have hbase : ∀ c ∈ t.base, c.utf8Size = 1 := fun c hc =>
    hascii c (List.mem_append_right _ (List.mem_cons_of_mem _ hc))
  have hdrop : (t.base ++ ".test".toList).rdrop 5 = t.base := by simp [List.rdrop]
  have hparts : fpgaTestdir python t.path = fpgaTestDir glob t.path ↔
      t.dir = substitution t.dir ∧ t.base.map (replaced isNameChar) =
        Generator.normalize (firstArgument glob (basename t.path ".test".toList)) := by
    unfold fpgaTestdir fpgaTestDir testDir
    rw [t.directory_path, t.lastField_path, hdrop, t.dirname_path,
      withoutSpecialChars_of_ascii hbase]
    have hbaseDir : "fpga-tests/test-resources".toList = fpgaTestBaseDir := rfl
    have hslash := slash_notMem_replaced isNameChar (Or.inr t.base_slash)
    rw [hbaseDir, path_inj hslash (slash_notMem_normalize _), List.append_cancel_left_eq,
      List.cons_eq_cons, eq_self, true_and]
  rw [hparts, eq_comm, substitution_eq_self_iff, t.basename_path]
  constructor
  · rintro ⟨hend, hname⟩
    have hne : t.base ≠ [] := by
      -- a name without base keeps its suffix, which is a word of five letters
      intro h
      rw [if_pos h, h] at hname
      have hword : firstArgument glob ".test".toList = ".test".toList := by
        have hwords : wordsBy Shell.isBlank ".test".toList = [".test".toList] := rfl
        have hliteral : ∀ c ∈ ['*', '?', '['], c ∉ ".test".toList := by simp
        unfold firstArgument
        rw [hwords, List.flatMap_singleton, glob.literal _ hliteral]
        rfl
      rw [hword] at hname
      exact absurd hname (by decide)
    rw [if_neg hne] at hname
    unfold Generator.normalize echo at hname
    -- options print nothing, and the base name is not empty
    cases hoption : isEchoOption (firstArgument glob t.base) with
    | true =>
      rw [hoption] at hname
      exact absurd (List.map_eq_nil_iff.mp hname) hne
    | false =>
      rw [hoption] at hname
      exact ⟨hascii, hend, hne, hoption, (map_replaced_eq_iff_alike _ _).mp hname.symm⟩
  · intro hplain
    rw [if_neg hplain.base_ne]
    unfold Generator.normalize echo trComplement
    rw [hplain.noOption]
    exact ⟨hplain.dirEnd, ((map_replaced_eq_iff_alike _ _).mpr hplain.word).symm⟩

/-- The directories of a plain test. -/
theorem testDir_of_plain {t : TestPath} (h : t.Plain glob) (baseDir : List Char) :
    testDir glob baseDir t.path =
      (baseDir ++ '/' :: t.dir) ++ '/' :: t.base.map (replaced isNameChar) := by
  unfold testDir Generator.normalize echo trComplement
  rw [t.dirname_path, t.basename_path, if_neg h.base_ne, h.noOption,
    (substitution_eq_self_iff t.dir).mpr h.dirEnd, ← (map_replaced_eq_iff_alike _ _).mpr h.word]
  rfl

/-- Two plain tests with one directory are alike. -/
theorem alike_of_testDir_eq {t t' : TestPath} (h : t.Plain glob) (h' : t'.Plain glob)
    {baseDir : List Char} (heq : testDir glob baseDir t.path = testDir glob baseDir t'.path) :
    List.Forall₂ Alike t.stem t'.stem := by
  have hslash : ∀ t : TestPath, '/' ∉ t.base.map (replaced isNameChar) := fun t =>
    slash_notMem_replaced isNameChar (Or.inr t.base_slash)
  rw [testDir_of_plain h, testDir_of_plain h', path_inj (hslash t) (hslash t'),
    List.append_cancel_left_eq, List.cons_eq_cons] at heq
  obtain ⟨⟨-, hdir⟩, hbase⟩ := heq
  unfold TestPath.stem
  rw [hdir]
  have hrefl : ∀ text : List Char, List.Forall₂ Alike text text := fun text =>
    List.forall₂_same.mpr fun c _ => Or.inl rfl
  exact List.rel_append (hrefl _) (.cons (Or.inl rfl) ((map_replaced_eq_iff_alike _ _).mp hbase))

end

/-! ### Sets of tests -/

/-- The tests of a set keep their names apart, and the test programs find them, exactly when the
path of each test is plain and no two paths agree up to the characters that are neither letters nor
digits. -/
theorem keepsApart_iff (python : IsAlnum) (glob : PathExpansion) (tests : Set TestPath) :
    KeepsApart python glob tests ↔ (∀ t ∈ tests, t.Plain glob) ∧
      ∀ t ∈ tests, ∀ t' ∈ tests, List.Forall₂ Alike t.stem t'.stem → t = t' := by
  constructor
  · intro h
    have hascii : ∀ t ∈ tests, ∀ c ∈ t.stem, c.utf8Size = 1 := fun t ht =>
      (simulationTestName_eq_iff t).mp (h.simulation t ht)
    refine ⟨fun t ht => (fpgaTestdir_eq_iff t (hascii t ht)).mp (h.fpga t ht), ?_⟩
    intro t ht t' ht' halike
    refine h.cfgName t ht t' ht' ?_
    rw [TestPath.tbCfgName_eq_iff (hascii t ht) (hascii t' ht')]
    exact halike
  · rintro ⟨hplain, hdistinct⟩
    have hascii : ∀ t ∈ tests, ∀ c ∈ t.stem, c.utf8Size = 1 := fun t ht => (hplain t ht).ascii
    have hfpga : ∀ t ∈ tests, fpgaTestdir python t.path = fpgaTestDir glob t.path := fun t ht =>
      (fpgaTestdir_eq_iff t (hascii t ht)).mpr (hplain t ht)
    refine ⟨?_, ?_, ?_, fun t ht => (simulationTestName_eq_iff t).mpr (hascii t ht), hfpga⟩
    · intro t ht t' ht' heq
      rw [TestPath.tbCfgName_eq_iff (hascii t ht) (hascii t' ht')] at heq
      exact hdistinct t ht t' ht' heq
    · intro t ht t' ht' heq
      exact hdistinct t ht t' ht' (alike_of_testDir_eq (hplain t ht) (hplain t' ht') heq)
    · intro t ht t' ht' heq
      exact hdistinct t ht t' ht' (alike_of_testDir_eq (hplain t ht) (hplain t' ht') heq)

/-- The test `b` of the group `a`, and the test `a_b` beside the group. -/
def groupedTest : TestPath where
  groups := ["tests".toList, ['a']]
  base := ['b']
  groups_ne := by decide
  entries := by simp [IsEntryName]
  noOption := by decide
  base_slash := by decide

/-- A test that lies in no group. -/
def ungroupedTest : TestPath where
  groups := ["tests".toList]
  base := "a_b".toList
  groups_ne := by decide
  entries := by simp [IsEntryName]
  noOption := by decide
  base_slash := by decide

/-- Two tests with one configuration name. -/
theorem not_keepsApart :
    tbCfgName groupedTest.path = "tests_a_b".toList ∧
      tbCfgName ungroupedTest.path = "tests_a_b".toList ∧
      ¬ ∀ (python : IsAlnum) (glob : PathExpansion) (tests : Set TestPath),
        KeepsApart python glob tests := by
  refine ⟨by decide, by decide, fun h => ?_⟩
  have hset := h ⟨Char.isAlphanum, fun _ _ => rfl⟩ ⟨fun word => [word], fun _ _ => rfl⟩ Set.univ
  have heq := hset.cfgName groupedTest trivial ungroupedTest trivial (by decide)
  exact absurd (congrArg TestPath.base heq) (by decide)

end VivadoTest.Spec
