import VivadoTest.Host.HostcommProxy

/-!
# `VivadoTest.Proofs.UartParser`: commands reach the bus

A hexadecimal numeral shifts the number it spells into a parameter register
(`feed_digits_data`, `feed_digits_addr`), so a write command of the host is one write on the
bus, of the low eight bits of its value to the low sixteen bits of its address, and a read
command is one read.

* `feed_writeByte`, `feed_readByteCommand`: one command.
* `readByteResult_readAnswer`: the host makes of an answer the byte that was read.

The parser has no buffer: a digit moves into its parameter register as it arrives, and the digits
before it move up and out. So a numeral of any length is read modulo `2 ^ 8` or `2 ^ 16`, and the
first digit clears what an earlier command has left (`first_nibble`). A command ends with the line
feed behind its address (`feed_lineFeed`), and only then is there an access.

`feed_append` and `feed_cons` take a text apart into its fields, each of which has a lemma.
-/

set_option autoImplicit false

namespace VivadoTest.Framework

open VivadoTest.Lib VivadoTest.Host

/-- The code of a hexadecimal digit on the serial line. -/
theorem hexDigit_byte {c : Char} {d : Nat} (hd : d < 16) (hc : digitValue c = some d) :
    dataInHexRange (BitVec.ofNat 8 c.toNat) = true ∧
      isWhite (BitVec.ofNat 8 c.toNat) = false ∧
      dataNibble (BitVec.ofNat 8 c.toNat) = BitVec.ofNat 4 d := by
  have htable : ∀ n < 128, ∀ v < 16, digitValue (Char.ofNat n) = some v →
      dataInHexRange (BitVec.ofNat 8 n) = true ∧ isWhite (BitVec.ofNat 8 n) = false ∧
        dataNibble (BitVec.ofNat 8 n) = BitVec.ofNat 4 v := by
    decide
  have hrange := digitValue_range hc
  refine htable c.toNat (by omega) d hd ?_
  rw [Char.ofNat_toNat]
  exact hc

/-- A nibble shifted into a parameter register. -/
theorem shift_nibble {k : Nat} (acc : Nat) {d : Nat} (hd : d < 16) :
    (BitVec.ofNat (k + 4) acc).extractLsb' 0 k ++ BitVec.ofNat 4 d
      = BitVec.ofNat (k + 4) (acc * 16 + d) := by
  apply BitVec.eq_of_toNat_eq
  rw [BitVec.toNat_append, BitVec.toNat_ofNat, BitVec.toNat_ofNat, BitVec.extractLsb'_toNat,
    BitVec.toNat_ofNat, Nat.shiftRight_zero, Nat.mod_eq_of_lt (show d < 2 ^ 4 from hd),
    ← Nat.shiftLeft_add_eq_or_of_lt hd, Nat.shiftLeft_eq,
    Nat.mod_mod_of_dvd _ (pow_dvd_pow 2 (Nat.le_add_right k 4)), pow_add]
  rw [Nat.mul_comm (2 ^ k), Nat.mod_mul, show (acc * 16 + d) % 2 ^ 4 = d by omega,
    show (acc * 16 + d) / 2 ^ 4 = acc by omega]
  omega

/-- The first digit of a parameter clears the ones before it. -/
theorem first_nibble {k d : Nat} (hd : d < 16) :
    (0 : BitVec k) ++ BitVec.ofNat 4 d = BitVec.ofNat (k + 4) d := by
  have h := shift_nibble (k := k) 0 hd
  simpa using h

namespace UartParser

variable {p : UartParser}

/-- Two texts one after the other. -/
theorem feed_append (p : UartParser) (xs ys : List Byte) :
    p.feed (xs ++ ys) =
      (((p.feed xs).1.feed ys).1, (p.feed xs).2 ++ ((p.feed xs).1.feed ys).2) := by
  induction xs generalizing p with
  | nil => rfl
  | cons x xs ih => simp only [List.cons_append, feed, ih, List.append_assoc]

/-- One character more in front. -/
theorem feed_cons (p : UartParser) (x : Byte) (xs : List Byte) :
    p.feed (x :: xs) = (((p.rx x).feed xs).1, p.ops x ++ ((p.rx x).feed xs).2) := rfl

/-! ### Digits -/

/-- The digits of a data parameter are shifted in one by one. The parameter has eight bits, so all
but the last two digits are lost. -/
theorem feed_digits_data (acc : Nat) {cs : List Char} (hsm : p.mainSm = .mainData)
    (hacc : p.dataParam = BitVec.ofNat 8 acc) (hcs : ∀ c ∈ cs, ∃ d < 16, digitValue c = some d) :
    p.feed (encode cs) = ({ p with dataParam := BitVec.ofNat 8 (horner 16 acc cs) }, []) := by
  induction cs generalizing p acc with
  | nil =>
    rw [horner_nil, ← hacc]
    rfl
  | cons c cs ih =>
    obtain ⟨d, hd, hc⟩ := hcs c List.mem_cons_self
    obtain ⟨hrange, -, hnibble⟩ := hexDigit_byte hd hc
    have hrx : p.rx (BitVec.ofNat 8 c.toNat)
        = { p with dataParam := BitVec.ofNat 8 (acc * 16 + d) } := by
      simp [rx, hsm, MainSm.next, hrange, hnibble, hacc, shift_nibble (k := 4) acc hd]
    have hops : p.ops (BitVec.ofNat 8 c.toNat) = [] := by simp [ops, hsm]
    have hrest := ih (p := { p with dataParam := BitVec.ofNat 8 (acc * 16 + d) })
      (acc * 16 + d) hsm rfl fun x hx => hcs x (List.mem_cons_of_mem c hx)
    rw [show encode (c :: cs) = BitVec.ofNat 8 c.toNat :: encode cs from rfl, feed_cons, hrx, hops,
      hrest, horner_cons, hc]
    rfl

/-- The digits of an address, of which the last four are kept. -/
theorem feed_digits_addr (acc : Nat) {cs : List Char} (hsm : p.mainSm = .mainAddr)
    (hacc : p.addrParam = BitVec.ofNat 16 acc) (hcs : ∀ c ∈ cs, ∃ d < 16, digitValue c = some d) :
    p.feed (encode cs) = ({ p with addrParam := BitVec.ofNat 16 (horner 16 acc cs) }, []) := by
  induction cs generalizing p acc with
  | nil =>
    rw [horner_nil, ← hacc]
    rfl
  | cons c cs ih =>
    obtain ⟨d, hd, hc⟩ := hcs c List.mem_cons_self
    obtain ⟨hrange, -, hnibble⟩ := hexDigit_byte hd hc
    have hrx : p.rx (BitVec.ofNat 8 c.toNat)
        = { p with addrParam := BitVec.ofNat 16 (acc * 16 + d) } := by
      simp [rx, hsm, MainSm.next, hrange, hnibble, hacc, shift_nibble (k := 12) acc hd]
    have hops : p.ops (BitVec.ofNat 8 c.toNat) = [] := by simp [ops, hrange]
    have hrest := ih (p := { p with addrParam := BitVec.ofNat 16 (acc * 16 + d) })
      (acc * 16 + d) hsm rfl fun x hx => hcs x (List.mem_cons_of_mem c hx)
    rw [show encode (c :: cs) = BitVec.ofNat 8 c.toNat :: encode cs from rfl, feed_cons, hrx, hops,
      hrest, horner_cons, hc]
    rfl

/-- A numeral where a data field may start. -/
theorem feed_data_field {cs : List Char} {n : Nat} (hsm : p.mainSm = .mainWhite1)
    (h : Spells 16 cs n) :
    p.feed (encode cs) = ({ p with mainSm := .mainData, dataParam := BitVec.ofNat 8 n }, []) := by
  obtain ⟨c, cs, rfl⟩ := List.exists_cons_of_ne_nil h.ne_nil
  obtain ⟨d, hd, hc⟩ := h.digit c List.mem_cons_self
  obtain ⟨hrange, hwhite, hnibble⟩ := hexDigit_byte hd hc
  have hrx : p.rx (BitVec.ofNat 8 c.toNat)
      = { p with mainSm := .mainData, dataParam := BitVec.ofNat 8 d } := by
    simp only [rx, hsm, MainSm.next, hwhite, hrange, hnibble, first_nibble hd]
    simp
  have hops : p.ops (BitVec.ofNat 8 c.toNat) = [] := by simp [ops, hsm]
  have hrest :=
    feed_digits_data (p := { p with mainSm := .mainData, dataParam := BitVec.ofNat 8 d })
    d rfl rfl fun x hx => h.digit x (List.mem_cons_of_mem c hx)
  have hn : horner 16 d cs = n := by
    rw [← h.value, horner_cons, hc]
    simp
  rw [show encode (c :: cs) = BitVec.ofNat 8 c.toNat :: encode cs from rfl, feed_cons, hrx, hops,
    hrest, hn]
  rfl

/-- A numeral where an address field may start. -/
theorem feed_addr_field {cs : List Char} {n : Nat} (hsm : p.mainSm = .mainWhite2)
    (h : Spells 16 cs n) :
    p.feed (encode cs) = ({ p with mainSm := .mainAddr, addrParam := BitVec.ofNat 16 n }, []) := by
  obtain ⟨c, cs, rfl⟩ := List.exists_cons_of_ne_nil h.ne_nil
  obtain ⟨d, hd, hc⟩ := h.digit c List.mem_cons_self
  obtain ⟨hrange, hwhite, hnibble⟩ := hexDigit_byte hd hc
  have hrx : p.rx (BitVec.ofNat 8 c.toNat)
      = { p with mainSm := .mainAddr, addrParam := BitVec.ofNat 16 d } := by
    simp only [rx, hsm, MainSm.next, hwhite, hrange, hnibble, first_nibble hd]
    simp
  have hops : p.ops (BitVec.ofNat 8 c.toNat) = [] := by simp [ops, hsm]
  have hrest :=
    feed_digits_addr (p := { p with mainSm := .mainAddr, addrParam := BitVec.ofNat 16 d })
    d rfl rfl fun x hx => h.digit x (List.mem_cons_of_mem c hx)
  have hn : horner 16 d cs = n := by
    rw [← h.value, horner_cons, hc]
    simp
  rw [show encode (c :: cs) = BitVec.ofNat 8 c.toNat :: encode cs from rfl, feed_cons, hrx, hops,
    hrest, hn]
  rfl

/-! ### Commands -/

/-- The bytes of two texts. -/
theorem encode_append (xs ys : List Char) : encode (xs ++ ys) = encode xs ++ encode ys :=
  List.map_append

/-- The line feed behind an address ends a command. -/
theorem feed_lineFeed (hsm : p.mainSm = .mainAddr) :
    p.feed (encode ['\n']) = ({ p with mainSm := .mainIdle },
      (if p.writeOp then [.write p.addrParam p.dataParam] else []) ++
        (if p.readOp then [.read p.addrParam] else [])) := by
  have hrx : p.rx 0x0A = { p with mainSm := .mainIdle } := by
    simp [rx, hsm, MainSm.next, dataInHexRange, isEol]
  have hops : p.ops 0x0A = (if p.writeOp then [.write p.addrParam p.dataParam] else []) ++
      (if p.readOp then [.read p.addrParam] else []) := by
    simp [ops, hsm, dataInHexRange]
  show p.feed [0x0A] = _
  rw [feed_cons, hrx, hops]
  simp [feed]

/-- The text of `_writeByte` is one write, and the parser is idle behind it. The parameters are
taken modulo their widths. -/
theorem feed_writeByte (hsm : p.mainSm = .mainIdle) (addr val : Nat) :
    (p.feed (encode (HostcommProxy.writeByte addr val))).1.mainSm = .mainIdle ∧
      (p.feed (encode (HostcommProxy.writeByte addr val))).2
        = [.write (BitVec.ofNat 16 addr) (BitVec.ofNat 8 val)] := by
  have hstart : p.feed (encode ['w', ' '])
      = ({ p with mainSm := .mainWhite1, readOp := false, writeOp := true }, []) := by
    show p.feed [0x77, 0x20] = _
    simp [feed, rx, ops, hsm, MainSm.next, isRead, isWrite, isWhite, dataInHexRange]
  have hspace : ∀ q : UartParser, q.mainSm = .mainData →
      q.feed (encode [' ']) = ({ q with mainSm := .mainWhite2 }, []) := by
    intro q hq
    show q.feed [0x20] = _
    simp [feed, rx, ops, hq, MainSm.next, isWhite, dataInHexRange]
  unfold HostcommProxy.writeByte
  simp only [encode_append, feed_append, hstart]
  rw [feed_data_field rfl (spells_formatX 2 val)]
  simp only
  rw [hspace _ rfl]
  simp only
  rw [feed_addr_field rfl (spells_formatX 4 addr)]
  simp only
  rw [feed_lineFeed rfl]
  exact ⟨rfl, rfl⟩

/-- A read command without its line feed starts no access. -/
theorem feed_readByteCommand_digits (hsm : p.mainSm = .mainIdle) (addr : Nat) :
    p.feed (encode (['r', ' '] ++ formatX 4 addr))
      = ({ p with
            mainSm := .mainAddr
            readOp := true
            writeOp := false
            addrParam := BitVec.ofNat 16 addr }, []) := by
  have hstart : p.feed (encode ['r', ' '])
      = ({ p with mainSm := .mainWhite2, readOp := true, writeOp := false }, []) := by
    show p.feed [0x72, 0x20] = _
    simp [feed, rx, ops, hsm, MainSm.next, isRead, isWrite, isWhite, dataInHexRange]
  rw [encode_append, feed_append, hstart]
  simp only
  rw [feed_addr_field rfl (spells_formatX 4 addr)]
  rfl

/-- The text of `_readByte` is one read. -/
theorem feed_readByteCommand (hsm : p.mainSm = .mainIdle) (addr : Nat) :
    (p.feed (encode (HostcommProxy.readByteCommand addr))).1.mainSm = .mainIdle ∧
      (p.feed (encode (HostcommProxy.readByteCommand addr))).2 =
        [.read (BitVec.ofNat 16 addr)] := by
  unfold HostcommProxy.readByteCommand
  rw [encode_append, feed_append, feed_readByteCommand_digits hsm]
  simp only
  rw [feed_lineFeed rfl]
  exact ⟨rfl, rfl⟩

/-- Once the parser follows a binary command, it does so to the end. -/
theorem feed_mainBinCmd (hsm : p.mainSm = .mainBinCmd) (xs : List Byte) :
    (p.feed xs).1.mainSm = .mainBinCmd := by
  induction xs generalizing p with
  | nil => exact hsm
  | cons x xs ih => exact ih (by simp [rx, hsm, MainSm.next])

end UartParser

/-! ### Answers -/

/-- The answer spells the byte in two digits. -/
theorem spells_readAnswer (v : Byte) :
    Spells 16 [txChar (v.extractLsb' 4 4), txChar (v.extractLsb' 0 4)] v.toNat := by
  have hdigit : ∀ x : BitVec 4, digitValue (txChar x) = some x.toNat := by decide
  refine ⟨List.cons_ne_nil _ _, ?_, ?_⟩
  · intro c hc
    rcases List.mem_cons.mp hc with rfl | hc
    · exact ⟨_, (v.extractLsb' 4 4).isLt, hdigit _⟩
    · obtain rfl := List.mem_singleton.mp hc
      exact ⟨_, (v.extractLsb' 0 4).isLt, hdigit _⟩
  · simp only [horner_cons, horner_nil, hdigit, Option.getD_some, BitVec.extractLsb'_toNat]
    have hlt := v.isLt
    omega

/-- So `_readByte` makes the byte of it, the line end being white space. -/
theorem readByteResult_readAnswer (v : Byte) :
    HostcommProxy.readByteResult (readAnswer v) = some (v.toNat : Int) := by
  unfold HostcommProxy.readByteResult readAnswer
  have hblank : ∀ c ∈ ['\r', '\n'], isBlank (toAscii c) = true := by
    intro c hc
    rcases List.mem_cons.mp hc with rfl | hc
    · decide
    · rw [List.mem_singleton.mp hc]
      decide
  exact pyInt_of_spells_append (by decide) (spells_readAnswer v) hblank

end VivadoTest.Framework
