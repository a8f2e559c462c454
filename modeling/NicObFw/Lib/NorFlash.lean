import Mathlib.Data.UInt
import Mathlib.Tactic.Common

/-!
# JEDEC NOR flash

A serial NOR flash that takes 24-bit addresses, most significant byte first. Erasing sets a sector to
`0xFF` and programming can only clear bits, inside one page, wrapping at its end. Both take effect
only when the write-enable latch is set and the chip is not busy, and both clear the latch and make
the chip busy for a time that the chip determines.
-/

namespace NorFlash

abbrev pageSize : ℕ := 256
abbrev sectorSize : ℕ := 4096

/-- The number of addresses that three address bytes can name. -/
abbrev capacity : ℕ := 2 ^ 24

/-- The commands of a chip that change its state, and those that read it. -/
inductive Cmd where
  | writeEnable
  | writeDisable
  | readStatus
  | sectorErase (addr : ℕ)
  | pageProgram (addr : ℕ) (data : List UInt8)
  /-- Anything else. -/
  | other
deriving DecidableEq, Repr

/-- The address that three bytes name. -/
def addr24 (high mid low : UInt8) : ℕ := high.toNat * 65536 + mid.toNat * 256 + low.toNat

/-- The command that the bytes of one transaction give. -/
def decode : List UInt8 → Cmd
  | [0x06] => .writeEnable
  | [0x04] => .writeDisable
  | 0x05 :: _ => .readStatus
  | [0x20, a, b, c] => .sectorErase (addr24 a b c)
  | 0x02 :: a :: b :: c :: d :: data => .pageProgram (addr24 a b c) (d :: data)
  | _ => .other

/-- The state of a chip. -/
structure Chip where
  mem : ℕ → UInt8
  /-- The write-enable latch. -/
  wel : Bool
  /-- An erase or a program is in progress. -/
  busy : Bool

/-- The memory after the sector of `addr` has been erased. -/
def erased (mem : ℕ → UInt8) (addr : ℕ) : ℕ → UInt8 := fun a =>
  if a / sectorSize = addr / sectorSize then 0xFF else mem a

/-- The memory after `data` has been programmed from `addr` on. A byte past the end of the page goes
to its start; of several bytes that go to one place the last counts. -/
def programmed (mem : ℕ → UInt8) (addr : ℕ) (data : List UInt8) : ℕ → UInt8 := fun a =>
  if a / pageSize = addr / pageSize then
    let i := (a + pageSize - addr % pageSize) % pageSize
    match data[i + pageSize * ((data.length - 1 - i) / pageSize)]? with
    | some byte => mem a &&& byte
    | none => mem a
  else mem a

/-- What a chip does on a command. -/
def Chip.exec (c : Chip) : Cmd → Chip
  | .writeEnable => if c.busy then c else { c with wel := true }
  | .writeDisable => if c.busy then c else { c with wel := false }
  | .sectorErase addr =>
    if c.wel && !c.busy then { mem := erased c.mem addr, wel := false, busy := true } else c
  | .pageProgram addr data =>
    if c.wel && !c.busy then { mem := programmed c.mem addr data, wel := false, busy := true }
    else c
  | .readStatus => c
  | .other => c

/-- A chip, some time later: it may have finished what it was busy with. -/
structure Later (c c' : Chip) : Prop where
  mem : c'.mem = c.mem
  wel : c'.wel = c.wel
  busy : c'.busy = true → c.busy = true

theorem Later.refl (c : Chip) : Later c c := ⟨rfl, rfl, id⟩

theorem Later.trans {c₁ c₂ c₃ : Chip} (h : Later c₁ c₂) (h' : Later c₂ c₃) : Later c₁ c₃ :=
  ⟨h'.mem.trans h.mem, h'.wel.trans h.wel, fun hb => h.busy (h'.busy hb)⟩

theorem Later.idle {c c' : Chip} (h : Later c c') (hb : c.busy = false) : c'.busy = false := by
  cases hb' : c'.busy with
  | false => rfl
  | true => rw [h.busy hb'] at hb; cases hb

/-! ## Commands and addresses -/

@[simp] theorem decode_writeEnable : decode [0x06] = .writeEnable := rfl

@[simp] theorem decode_readStatus (rest : List UInt8) : decode (0x05 :: rest) = .readStatus := by
  simp [decode]

@[simp] theorem decode_sectorErase (a b c : UInt8) :
    decode [0x20, a, b, c] = .sectorErase (addr24 a b c) := by
  simp [decode]

@[simp] theorem decode_pageProgram (a b c : UInt8) {data : List UInt8} (h : data ≠ []) :
    decode (0x02 :: a :: b :: c :: data) = .pageProgram (addr24 a b c) data := by
  cases data with
  | nil => exact absurd rfl h
  | cons d data => simp [decode]

/-- The three low bytes of an address, most significant first, name the address modulo 2^24. -/
theorem addr24_bytes (addr : UInt32) :
    addr24 (addr >>> 16).toUInt8 (addr >>> 8).toUInt8 addr.toUInt8 = addr.toNat % capacity := by
  simp only [addr24, UInt32.toNat_toUInt8, UInt32.toNat_shiftRight, Nat.shiftRight_eq_div_pow]
  show addr.toNat / 65536 % 256 * 65536 + addr.toNat / 256 % 256 * 256 + addr.toNat % 256 =
    addr.toNat % 16777216
  omega

/-! ## What a command leaves unchanged -/

/-- The command may change the byte at `a`. -/
def Cmd.Touches (a : ℕ) : Cmd → Prop
  | .sectorErase addr => a / sectorSize = addr / sectorSize
  | .pageProgram addr _ => a / pageSize = addr / pageSize
  | _ => False

theorem Chip.exec_mem {c : Chip} {cmd : Cmd} {a : ℕ} (h : ¬ cmd.Touches a) :
    (c.exec cmd).mem a = c.mem a := by
  cases cmd with
  | sectorErase addr =>
    have hne : ¬ a / sectorSize = addr / sectorSize := h
    simp only [Chip.exec]
    split
    · exact if_neg hne
    · rfl
  | pageProgram addr data =>
    have hne : ¬ a / pageSize = addr / pageSize := h
    simp only [Chip.exec]
    split
    · exact if_neg hne
    · rfl
  | writeEnable => simp only [Chip.exec]; split <;> rfl
  | writeDisable => simp only [Chip.exec]; split <;> rfl
  | readStatus => rfl
  | other => rfl

/-! ## What erasing and programming do -/

theorem erased_of_sector {mem : ℕ → UInt8} {addr a : ℕ} (h : a / sectorSize = addr / sectorSize) :
    erased mem addr a = 0xFF := if_pos h

theorem erased_of_not_sector {mem : ℕ → UInt8} {addr a : ℕ}
    (h : a / sectorSize ≠ addr / sectorSize) : erased mem addr a = mem a := if_neg h

theorem programmed_of_not_page {mem : ℕ → UInt8} {addr a : ℕ} {data : List UInt8}
    (h : a / pageSize ≠ addr / pageSize) : programmed mem addr data a = mem a := if_neg h

/-- A byte of a program that stays inside its page clears bits at its own address. -/
theorem programmed_of_lt {mem : ℕ → UInt8} {addr i : ℕ} {data : List UInt8}
    (hpage : addr % pageSize + data.length ≤ pageSize) (hi : i < data.length) :
    programmed mem addr data (addr + i) = mem (addr + i) &&& data[i] := by
  unfold pageSize at hpage
  have hp : (addr + i) / 256 = addr / 256 := by omega
  have hpos : (addr + i + 256 - addr % 256) % 256 = i := by omega
  have hlast : (data.length - 1 - i) / 256 = 0 := Nat.div_eq_of_lt (by omega)
  simp only [programmed, pageSize, if_pos hp, hpos, hlast, Nat.mul_zero, Nat.add_zero,
    List.getElem?_eq_getElem hi]

/-- The first byte of a program of at most a page clears bits at the address of the program. -/
theorem programmed_start {mem : ℕ → UInt8} {addr : ℕ} {data : List UInt8} (h0 : 0 < data.length)
    (hlen : data.length ≤ pageSize) : programmed mem addr data addr = mem addr &&& data[0] := by
  unfold pageSize at hlen
  have hpos : (addr + 256 - addr % 256) % 256 = 0 := by omega
  have hlast : (data.length - 1 - 0) / 256 = 0 := Nat.div_eq_of_lt (by omega)
  simp only [programmed, pageSize, hpos, hlast, Nat.mul_zero, Nat.add_zero,
    List.getElem?_eq_getElem h0, if_true]

/-- A program of zeros clears a byte or leaves it. -/
theorem programmed_zero (mem : ℕ → UInt8) (addr a : ℕ) {data : List UInt8}
    (h : ∀ byte ∈ data, byte = 0) :
    programmed mem addr data a = 0 ∨ programmed mem addr data a = mem a := by
  simp only [programmed]
  split
  · split
    · rename_i byte hbyte
      left
      rw [h byte (List.mem_of_getElem? hbyte), UInt8.and_zero]
    · exact Or.inr rfl
  · exact Or.inr rfl

/-- A program that stays inside its page changes no byte outside its range. -/
theorem programmed_of_outside {mem : ℕ → UInt8} {addr a : ℕ} {data : List UInt8}
    (hpage : addr % pageSize + data.length ≤ pageSize) (ha : a < addr ∨ addr + data.length ≤ a) :
    programmed mem addr data a = mem a := by
  unfold pageSize at hpage
  by_cases hp : a / 256 = addr / 256
  · have hpos : data.length ≤ (a + 256 - addr % 256) % 256 := by omega
    simp only [programmed, pageSize, if_pos hp]
    rw [List.getElem?_eq_none (by omega)]
  · exact programmed_of_not_page hp

/-- A program into an erased byte stores its byte. -/
theorem erased_and (byte : UInt8) : 0xFF &&& byte = byte := UInt8.neg_one_and

end NorFlash
