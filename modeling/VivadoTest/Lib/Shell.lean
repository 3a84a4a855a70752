import VivadoTest.Lib.PyText

/-!
# `VivadoTest.Lib.Shell`: text filters

The filters that shell scripts chain, as functions on text: `fold -b`, `cut -b2-`, `nl -nln`,
`xargs -n2` and the fields and numbers of `awk`. Each of them reads an unterminated last line
as a line.

* `fold_blocks`, `textLines_fold`: a text made of blocks of one width folds into the blocks.
* `words_nlLine`: a numbered line read back.
* `xargsPairs_flatMap`, `field_pair`: items and fields that come in pairs.

Blocks of one width are what `fold` is asked for, and fields of one word each what `awk` is asked
for. The filters are stated for any text, and the rules for texts of such a shape.
-/

set_option autoImplicit false

namespace VivadoTest.Lib.Shell

/-- `fold -w<width> -b`, `column` bytes of the line having been written. -/
def fold (width : Nat) : Nat → List Char → List Char
  | _, [] => []
  | column, c :: cs =>
    if c = '\n' then '\n' :: fold width 0 cs
    else if column < width then c :: fold width (column + 1) cs
    else '\n' :: c :: fold width 1 cs

/-- `cut -b2-`. -/
def cut (text : List Char) : List Char := unlines ((textLines text).map (List.drop 1))

/-- A numbered line of `nl -nln`. -/
def nlLine (number : Nat) (line : List Char) : List Char :=
  (Nat.toDigits 10 number).rightpad 6 ' ' ++ '\t' :: line

/-- `nl -v<number> -nln`: empty lines are not numbered. -/
def nl (number : Nat) : List (List Char) → List (List Char)
  | [] => []
  | line :: lines =>
    if line = [] then List.replicate 7 ' ' :: nl number lines
    else nlLine number line :: nl (number + 1) lines

/-- The blanks between the items of `xargs` and the fields of `awk`. -/
def isBlank (c : Char) : Bool := c = ' ' || c = '\t' || c = '\n'

/-- Two items on a line. -/
def xargsPairs : List (List Char) → List (List Char)
  | [] => []
  | [item] => [item]
  | item :: item' :: items => (item ++ ' ' :: item') :: xargsPairs items

/-- `xargs -n2`, for items without quotes and backslashes. Without items `echo` still runs
once. -/
def xargs (text : List Char) : List Char :=
  match wordsBy isBlank text with
  | [] => ['\n']
  | items => unlines (xargsPairs items)

/-- The field `$k` of a line. -/
def field (k : Nat) (line : List Char) : List Char := ((wordsBy isBlank line)[k - 1]?).getD []

/-- The numeric value of a text that starts with a natural number. -/
def number (text : List Char) : Nat :=
  horner 10 0 (text.takeWhile fun c => (digitValue c).any (· < 10))

/-- `strtonum("0x" text)`. The numbers of `awk` are exact below `2^53`. -/
def strtonumHex (text : List Char) : Nat :=
  horner 16 0 (text.takeWhile fun c => (digitValue c).any (· < 16))

/-! ### Folding -/

section
variable {width : Nat}

/-- A block that fits into the line is not broken. -/
theorem fold_append_of_le {block : List Char} {column : Nat} (hnl : '\n' ∉ block)
    (hle : column + block.length ≤ width) (rest : List Char) :
    fold width column (block ++ rest) = block ++ fold width (column + block.length) rest := by
  induction block generalizing column with
  | nil => rfl
  | cons c block ih =>
    rw [List.length_cons] at hle
    obtain ⟨hc, hnl⟩ := not_or.mp (mt List.mem_cons.mpr hnl)
    rw [List.cons_append, fold, if_neg (Ne.symm hc), if_pos (by omega), ih hnl (by omega),
      List.length_cons, Nat.add_right_comm column 1, Nat.add_assoc]
    rfl

/-- A full line is broken before the next character. -/
theorem fold_full {c : Char} (hc : c ≠ '\n') (hw : 0 < width) (rest : List Char) :
    fold width width (c :: rest) = '\n' :: fold width 0 (c :: rest) := by
  rw [fold, if_neg hc, if_neg (lt_irrefl width), fold, if_neg hc, if_pos hw]

/-- A text made of blocks of one width. -/
theorem fold_blocks (hw : 0 < width) {blocks : List (List Char)} (hne : blocks ≠ [])
    (hlen : ∀ block ∈ blocks, block.length = width) (hnl : ∀ block ∈ blocks, '\n' ∉ block)
    (rest : List Char) :
    fold width 0 (blocks.flatten ++ rest) = ['\n'].intercalate blocks ++ fold width width rest := by
  -- One block fills a line exactly.
  have hblock : ∀ block ∈ blocks, ∀ text,
      fold width 0 (block ++ text) = block ++ fold width width text := by
    intro block hb text
    rw [fold_append_of_le (hnl block hb) (by rw [hlen block hb, Nat.zero_add]), hlen block hb,
      Nat.zero_add]
  induction blocks with
  | nil => exact absurd rfl hne
  | cons block blocks ih =>
    rw [List.flatten_cons, List.append_assoc, hblock block List.mem_cons_self]
    cases blocks with
    | nil => simp
    | cons next blocks =>
      have htail : ∀ x ∈ next :: blocks, x ∈ block :: next :: blocks :=
        fun x hx => List.mem_cons_of_mem block hx
      -- the next block is not empty, so the line is broken in front of it
      obtain ⟨c, cs, hcs⟩ : ∃ c cs, next = c :: cs := by
        refine List.exists_cons_of_ne_nil ?_
        rintro rfl
        have := hlen [] (htail _ List.mem_cons_self)
        exact absurd this (by simpa using hw.ne)
      have hc : c ≠ '\n' := by
        rintro rfl
        exact hnl next (htail _ List.mem_cons_self) (hcs ▸ List.mem_cons_self)
      have hstart : (next :: blocks).flatten ++ rest = c :: (cs ++ blocks.flatten ++ rest) := by
        rw [List.flatten_cons, hcs]
        rfl
      rw [hstart, fold_full hc hw, ← hstart,
        ih (List.cons_ne_nil _ _) (fun x hx => hlen x (htail x hx))
          (fun x hx => hnl x (htail x hx)) (fun x hx => hblock x (htail x hx))]
      simp [List.intercalate_cons_cons]

/-- The lines of a folded text. -/
theorem textLines_fold (hw : 0 < width) {blocks : List (List Char)}
    (hlen : ∀ block ∈ blocks, block.length = width) (hnl : ∀ block ∈ blocks, '\n' ∉ block) :
    textLines (fold width 0 blocks.flatten) = blocks := by
  rcases eq_or_ne blocks [] with rfl | hne
  · simp [fold, textLines]
  · have h := fold_blocks hw hne hlen hnl []
    rw [List.append_nil, fold, List.append_nil] at h
    rw [h]
    refine textLines_intercalate hnl ?_
    rintro block hb rfl
    exact absurd (hlen _ hb) (by simpa using hw.ne)

/-- The lines of a folded text of lines. -/
theorem fold_unlines (hw : 0 < width) {lines : List (List (List Char))}
    (hne : ∀ blocks ∈ lines, blocks ≠ [])
    (hlen : ∀ blocks ∈ lines, ∀ block ∈ blocks, block.length = width)
    (hnl : ∀ blocks ∈ lines, ∀ block ∈ blocks, '\n' ∉ block) :
    fold width 0 (unlines (lines.map List.flatten)) = unlines lines.flatten := by
  induction lines with
  | nil => rfl
  | cons blocks lines ih =>
    have hfirst := List.mem_cons_self (a := blocks) (l := lines)
    have hunlines :
      unlines (blocks :: lines).flatten = unlines blocks ++ unlines lines.flatten := by
      unfold unlines
      rw [List.flatten_cons, List.flatMap_append]
    show fold width 0 ((blocks.flatten ++ ['\n']) ++ unlines (lines.map List.flatten)) = _
    rw [List.append_assoc, fold_blocks hw (hne _ hfirst) (hlen _ hfirst) (hnl _ hfirst),
      List.singleton_append, fold, if_pos rfl,
      ih (fun x hx => hne x (List.mem_cons_of_mem _ hx))
        (fun x hx => hlen x (List.mem_cons_of_mem _ hx))
        (fun x hx => hnl x (List.mem_cons_of_mem _ hx)),
      hunlines, ← intercalate_append_newline (hne _ hfirst), List.append_assoc,
      List.singleton_append]

end

/-! ### Numbering -/

/-- The number and the text of a numbered line. -/
theorem words_nlLine (number : Nat) {line : List Char} (hne : line ≠ [])
    (h : ∀ c ∈ line, isSpace c = false) :
    words (nlLine number line) = [Nat.toDigits 10 number, line] := by
  have hline : nlLine number line = Nat.toDigits 10 number ++
      (List.replicate (6 - (Nat.toDigits 10 number).length) ' ' ++ ['\t']) ++ line := by
    simp [nlLine, List.rightpad]
  rw [hline]
  refine wordsBy_pair Nat.toDigits_ne_nil hne
    (isSpace_of_spells (spells_toDigits (by decide) (by decide) number)) h (by simp) ?_
  intro c hc
  rcases List.mem_append.mp hc with hc | hc
  · rw [List.eq_of_mem_replicate hc]
    decide
  · rw [List.mem_singleton.mp hc]
    decide

/-- A numbered line contains no newline. -/
theorem noNewline_nlLine (number : Nat) {line : List Char} (h : '\n' ∉ line) :
    '\n' ∉ nlLine number line := by
  have hdigits := (spells_toDigits (b := 10) (by decide) (by decide) number).not_mem
    (show digitValue '\n' = none by decide)
  unfold nlLine List.rightpad
  simp [h, hdigits]

/-! ### Items and fields -/

/-- `xargs -n 2` puts the words that came as pairs back together. -/
theorem xargsPairs_flatMap (pairs : List (List Char × List Char)) :
    xargsPairs (pairs.flatMap fun p => [p.1, p.2]) = pairs.map fun p => p.1 ++ ' ' :: p.2 := by
  induction pairs with
  | nil => rfl
  | cons p pairs ih =>
    rw [List.flatMap_cons, List.map_cons, ← ih]
    rfl

/-- A line of two fields. -/
theorem field_pair {v w : List Char} (hv : v ≠ []) (hw : w ≠ [])
    (hvs : ∀ c ∈ v, isBlank c = false) (hws : ∀ c ∈ w, isBlank c = false) :
    field 1 (v ++ ' ' :: w) = v ∧ field 2 (v ++ ' ' :: w) = w := by
  have hpair : wordsBy isBlank (v ++ ' ' :: w) = [v, w] := by
    rw [← List.singleton_append, ← List.append_assoc]
    exact wordsBy_pair hv hw hvs hws (by simp) fun c hc => by
      rw [List.mem_singleton.mp hc]
      decide
  unfold field
  rw [hpair]
  exact ⟨rfl, rfl⟩

/-- A digit is no blank. -/
theorem isBlank_eq_false_of_digitValue {c : Char} {d : Nat} (h : digitValue c = some d) :
    isBlank c = false := by
  unfold isBlank
  simp only [Bool.or_eq_false_iff, decide_eq_false_iff_not]
  exact ⟨⟨ne_of_digitValue h (by decide), ne_of_digitValue h (by decide)⟩,
    ne_of_digitValue h (by decide)⟩

/-- No character of a numeral is a blank. -/
theorem isBlank_of_spells {b : Nat} {cs : List Char} {n : Nat} (h : Spells b cs n) :
    ∀ c ∈ cs, isBlank c = false := by
  intro c hc
  obtain ⟨d, -, hd⟩ := h.digit c hc
  exact isBlank_eq_false_of_digitValue hd

/-- A numeral consists of digits to its end. -/
theorem takeWhile_of_spells {b : Nat} {cs : List Char} {n : Nat} (h : Spells b cs n) :
    (cs.takeWhile fun c => (digitValue c).any (· < b)) = cs := by
  refine List.takeWhile_eq_self_iff.mpr fun c hc => ?_
  obtain ⟨d, hd, hc⟩ := h.digit c hc
  simp [hc, hd]

/-- `awk` reads a decimal numeral as its number. -/
theorem number_of_spells {cs : List Char} {n : Nat} (h : Spells 10 cs n) : number cs = n := by
  unfold number
  rw [takeWhile_of_spells h, h.value]

/-- `strtonum` reads a hexadecimal numeral as its number. -/
theorem strtonumHex_of_spells {cs : List Char} {n : Nat} (h : Spells 16 cs n) :
    strtonumHex cs = n := by
  unfold strtonumHex
  rw [takeWhile_of_spells h, h.value]

end VivadoTest.Lib.Shell
