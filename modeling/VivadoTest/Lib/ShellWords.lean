import Mathlib.Data.List.Forall2
import VivadoTest.Lib.PurePath
import VivadoTest.Lib.Shell

/-!
# `VivadoTest.Lib.ShellWords`: words, file names and their characters

What a shell makes of a word (`echo -n`, `tr`, `basename`, `dirname`, the splitting and expansion
of an unquoted substitution), and the path functions of Python beside it.

* `lastField_append`, `directory_append`: the two parts of a path with a slash.
* `map_replaced_eq_iff`: two texts become one under a replacement when they agree up to the
  characters that it replaces.
* `bytes_of_ascii`, `ascii_of_length_bytes`: the bytes of a text, and when there are as many as
  characters.

The expansion of a pattern depends on the directory in which a script runs, so it is a parameter
(`PathExpansion`): a word without special characters stays as it is, and any other one may become
any words. The characters of a text may be more than one byte, and the shell replaces bytes where
Python replaces characters.
-/

set_option autoImplicit false

namespace VivadoTest.Lib.Shell

/-- The bytes of a text in UTF-8, each as the character with its number. -/
def bytes (text : List Char) : List Char :=
  (text.flatMap String.utf8EncodeChar).map Char.ofUInt8

/-- The argument is read by `echo` as options: a dash and some of the letters `n`, `e`, `E`. -/
def isEchoOption : List Char → Bool
  | '-' :: flags => !flags.isEmpty && flags.all fun c => c = 'n' || c = 'e' || c = 'E'
  | _ => false

/-- `echo -n "text"`. -/
def echo (text : List Char) : List Char := if isEchoOption text then [] else text

/-- A character that is not kept becomes an underscore. -/
def replaced (isKept : Char → Bool) (c : Char) : Char := if isKept c then c else '_'

/-- `tr --complement kept '_'`, which works byte by byte. -/
def trComplement (isKept : Char → Bool) (text : List Char) : List Char :=
  (bytes text).map (replaced isKept)

/-- `$(..)` without the newlines at the end. -/
def substitution (text : List Char) : List Char := text.rdropWhile fun c => c = '\n'

/-- Pathname expansion in the directory where a script runs. A word without `*`, `?` and `[` is
no pattern. -/
structure PathExpansion where
  expand : List Char → List (List Char)
  literal : ∀ word : List Char, (∀ c ∈ ['*', '?', '['], c ∉ word) → expand word = [word]

/-- The first argument that an unquoted substitution yields: the text is split at blanks, and the
words are expanded. -/
def firstArgument (glob : PathExpansion) (text : List Char) : List Char :=
  ((wordsBy isBlank text).flatMap glob.expand).headD []

/-- `os.path.dirname`: what stands in front of the last component of a path, without the slashes at
the end unless there is nothing else. -/
def directory (path : List Char) : List Char :=
  let head := path.rdropWhile fun c => c != '/'
  if head.all (fun c => c = '/') then head else head.rdropWhile fun c => c = '/'

/-- `dirname path`, for a path that does not end in a slash and whose directory is not the root
written with several slashes. -/
def dirname (path : List Char) : List Char :=
  if directory path = [] then ['.'] else directory path

/-- `text%%suffix`, for a suffix that is no pattern. -/
def stripSuffix (suffix text : List Char) : List Char :=
  if suffix.isSuffixOf text then text.take (text.length - suffix.length) else text

/-- `basename path suffix`: a name that is nothing but the suffix keeps it. -/
def basename (path suffix : List Char) : List Char :=
  if lastField path = suffix then lastField path else stripSuffix suffix (lastField path)

/-! ### The parts of a path -/

section
variable {dir name : List Char}

/-- The last field of a path with a directory is the name after the last slash. -/
theorem lastField_append (hname : '/' ∉ name) : lastField (dir ++ '/' :: name) = name := by
  unfold lastField
  induction name using List.reverseRecOn with
  | nil => exact List.rtakeWhile_concat_neg _ _ _ (by simp)
  | append_singleton name c ih =>
    have hc : c ≠ '/' := by
      rintro rfl
      exact hname (by simp)
    have hpath : dir ++ '/' :: (name ++ [c]) = (dir ++ '/' :: name) ++ [c] := by simp
    rw [hpath, List.rtakeWhile_concat_pos _ _ _ (by simpa using hc)]
    rw [ih fun h => hname (List.mem_append_left _ h)]

/-- The directory of such a path. -/
theorem directory_append (hdir : dir ≠ []) (hlast : dir.getLast? ≠ some '/') (hname : '/' ∉ name) :
    directory (dir ++ '/' :: name) = dir := by
  have hhead : (dir ++ '/' :: name).rdropWhile (fun c => c != '/') = dir ++ ['/'] := by
    induction name using List.reverseRecOn with
    | nil => exact List.rdropWhile_concat_neg _ _ _ (by simp)
    | append_singleton name c ih =>
      have hc : c ≠ '/' := by
        rintro rfl
        exact hname (by simp)
      have hpath : dir ++ '/' :: (name ++ [c]) = (dir ++ '/' :: name) ++ [c] := by simp
      rw [hpath, List.rdropWhile_concat_pos _ _ _ (by simpa using hc)]
      exact ih fun h => hname (List.mem_append_left _ h)
  have hend : dir.getLast hdir ≠ '/' := by
    intro h
    exact hlast (by rw [List.getLast?_eq_getLast_of_ne_nil hdir, h])
  -- the directory ends in some other character, so only the slash behind it goes
  have hall : (dir ++ ['/']).all (fun c => c = '/') = false := by
    rw [List.all_eq_false]
    exact ⟨_, List.mem_append_left _ (List.getLast_mem hdir), by simpa using hend⟩
  unfold directory
  simp only [hhead, hall, Bool.false_eq_true, if_false]
  rw [List.rdropWhile_concat_pos _ _ _ (by simp)]
  exact List.rdropWhile_eq_self_iff.mpr fun _ => by simpa using hend

/-- `dirname` gives the directory where it is not empty and does not end in a slash. -/
theorem dirname_append (hdir : dir ≠ []) (hlast : dir.getLast? ≠ some '/') (hname : '/' ∉ name) :
    dirname (dir ++ '/' :: name) = dir := by
  unfold dirname
  rw [directory_append hdir hlast hname, if_neg hdir]

/-- A suffix that is there is stripped, and only once. -/
theorem stripSuffix_append (suffix text : List Char) :
    stripSuffix suffix (text ++ suffix) = text := by
  unfold stripSuffix
  rw [if_pos (List.isSuffixOf_iff_suffix.mpr (List.suffix_append text suffix))]
  simp

/-- A name in front of the suffix. -/
theorem basename_append {suffix : List Char} (hname : '/' ∉ name) (hsuffix : '/' ∉ suffix) :
    basename (dir ++ '/' :: (name ++ suffix)) suffix = if name = [] then suffix else name := by
  unfold basename
  rw [lastField_append (by simp [hname, hsuffix])]
  by_cases h : name = []
  · rw [if_pos h, h, List.nil_append, if_pos rfl]
  · rw [if_neg h, if_neg (by simpa using h), stripSuffix_append]

/-- Two paths with the same text have the same parts. -/
theorem path_inj {dir' name' : List Char} (hname : '/' ∉ name) (hname' : '/' ∉ name') :
    dir ++ '/' :: name = dir' ++ '/' :: name' ↔ dir = dir' ∧ name = name' := by
  constructor
  · intro h
    have hlast : name = name' := by
      rw [← @lastField_append dir name hname, h, lastField_append hname']
    subst hlast
    exact ⟨List.append_cancel_right h, rfl⟩
  · rintro ⟨rfl, rfl⟩
    rfl

end

/-! ### Words -/

/-- Command substitution changes a text exactly when it ends in a newline. -/
theorem substitution_eq_self_iff (text : List Char) :
    substitution text = text ↔ text.getLast? ≠ some '\n' := by
  unfold substitution
  rw [List.rdropWhile_eq_self_iff]
  constructor
  · intro h hlast
    obtain ⟨init, rfl⟩ := List.getLast?_eq_some_iff.mp hlast
    exact h (by simp) (by simp)
  · intro h hne hlast
    rw [List.getLast?_eq_getLast_of_ne_nil hne] at h
    simp_all

/-- A text with some other character is no option. -/
theorem isEchoOption_eq_false {text : List Char} {c : Char} (hc : c ∉ ['-', 'n', 'e', 'E'])
    (h : c ∈ text) : isEchoOption text = false := by
  cases text with
  | nil => rfl
  | cons first flags =>
    by_contra hoption
    unfold isEchoOption at hoption
    split at hoption
    · rename_i heq
      obtain ⟨rfl, rfl⟩ := List.cons_eq_cons.mp heq
      simp only [List.all_eq_true, Bool.not_eq_false, Bool.and_eq_true] at hoption
      rcases List.mem_cons.mp h with rfl | hflag
      · simp at hc
      · have := hoption.2 c hflag
        simp_all
    · exact hoption rfl

/-! ### Characters -/

/-- Two texts have one translation exactly when they agree character by character up to the
replaced ones. -/
theorem map_replaced_eq_iff (isKept : Char → Bool) (s t : List Char) :
    s.map (replaced isKept) = t.map (replaced isKept) ↔
      List.Forall₂ (fun c c' => replaced isKept c = replaced isKept c') s t := by
  rw [← List.forall₂_eq_eq_eq, List.forall₂_map_left_iff, List.forall₂_map_right_iff]

/-- The bytes of a text, character by character. -/
@[simp] theorem bytes_cons (c : Char) (text : List Char) :
    bytes (c :: text) = (String.utf8EncodeChar c).map Char.ofUInt8 ++ bytes text := by
  unfold bytes
  rw [List.flatMap_cons, List.map_append]

/-- A text of one-byte characters is its own bytes. -/
theorem bytes_of_ascii {text : List Char} (h : ∀ c ∈ text, c.utf8Size = 1) : bytes text = text := by
  induction text with
  | nil => rfl
  | cons c text ih =>
    have hc := h c List.mem_cons_self
    -- the only byte of the character is its number
    have hbyte : Char.ofUInt8 c.val.toUInt8 = c := by
      have hle := UInt32.le_iff_toNat_le.mp (Char.utf8Size_eq_one_iff.mp hc)
      refine Char.ext (UInt32.toNat.inj ?_)
      show (c.val.toUInt8.toUInt32).toNat = c.val.toNat
      rw [UInt8.toNat_toUInt32, UInt32.toNat_toUInt8]
      exact Nat.mod_eq_of_lt (Nat.lt_of_le_of_lt hle (by decide))
    rw [bytes_cons, String.utf8EncodeChar_eq_singleton hc, List.map_singleton, hbyte,
      ih fun x hx => h x (List.mem_cons_of_mem c hx)]
    rfl

/-- A text has at least as many bytes as characters, and as many only where each character is a
single byte. -/
theorem ascii_of_length_bytes {text : List Char} :
    text.length ≤ (bytes text).length ∧
      ((bytes text).length = text.length → ∀ c ∈ text, c.utf8Size = 1) := by
  induction text with
  | nil => simp [bytes]
  | cons c text ih =>
    have hpos := c.utf8Size_pos
    rw [bytes_cons, List.length_append, List.length_map, String.length_utf8EncodeChar,
      List.length_cons]
    refine ⟨by omega, fun hlength x hx => ?_⟩
    rcases List.mem_cons.mp hx with rfl | hx
    · omega
    · exact ih.2 (by omega) x hx

end VivadoTest.Lib.Shell
