import Brainfuck.Cell
import Mathlib.Data.Int.Bitwise
import Mathlib.Data.Int.ModEq
import Mathlib.Data.Set.Function

/-! # Cells count modulo a power of two

An operation keeps the low bits of an integer, written in two's complement, and these bits are its
residue modulo two to their number. So only the numbers of increments and decrements matter for what
they lead to, not their order, and each of the two takes back the other.

Main definitions: `CellCall`, `CellKind.callAll`, `CellKind.values`, `CellKind.Modular`. Main
statement: `CellKind.exists_modular_ofBits`. -/

namespace Brainfuck

/-! ## Low bits and residues -/

/-- The low bits of an integer, also of a negative one, are its residue. -/
theorem land_two_pow_sub_one (value : Int) (bits : Nat) :
    Int.land value (2 ^ bits - 1 : Nat) = value % 2 ^ bits := by
  have hpos : 0 < 2 ^ bits := Nat.two_pow_pos bits
  have hcast : ((2 ^ bits : Nat) : Int) = 2 ^ bits := Int.natCast_pow 2 bits
  cases value with
  | ofNat value =>
    show ((value &&& 2 ^ bits - 1 : Nat) : Int) = value % 2 ^ bits
    rw [Nat.and_two_pow_sub_one_eq_mod]
    exact Int.natCast_emod value (2 ^ bits)
  | negSucc value =>
    -- the mask without the bits of the complement
    have hlow : Nat.ldiff (2 ^ bits - 1) value = 2 ^ bits - (value % 2 ^ bits + 1) := by
      refine Nat.eq_of_testBit_eq fun index => ?_
      rw [Nat.testBit_ldiff, Nat.testBit_two_pow_sub_one,
        Nat.testBit_two_pow_sub_succ (Nat.mod_lt value hpos), Nat.testBit_mod_two_pow]
      cases decide (index < bits) <;> rfl
    have hlt := Nat.mod_lt value hpos
    show (Nat.ldiff (2 ^ bits - 1) value : Int) = _
    rw [hlow, ← hcast, Int.negSucc_emod value (Int.natCast_pos.mpr hpos)]
    omega

/-- A residue is the one integer of its range that is congruent. -/
theorem emod_eq_iff_modEq {modulus : Int} (h : 0 < modulus) {value result : Int} :
    value % modulus = result ↔ 0 ≤ result ∧ result < modulus ∧ result ≡ value [ZMOD modulus] := by
  constructor
  · rintro rfl
    exact ⟨Int.emod_nonneg value h.ne', Int.emod_lt_of_pos value h, Int.mod_modEq value modulus⟩
  · rintro ⟨hnonneg, hlt, hcongruent⟩
    calc value % modulus = result % modulus := hcongruent.symm
      _ = result := Int.emod_eq_of_lt hnonneg hlt

namespace CellKind

theorem modulus_eq_two_pow (kind : CellKind) : (kind.modulus : Int) = 2 ^ kind.bits :=
  Int.natCast_pow 2 kind.bits

theorem mask_eq_two_pow_sub_one (kind : CellKind) : (kind.mask : Int) = 2 ^ kind.bits - 1 := by
  have hpos := kind.modulus_pos
  rw [← modulus_eq_two_pow, mask]
  omega

theorem wrap_eq_emod (kind : CellKind) (value : Int) : kind.wrap value = value % 2 ^ kind.bits := by
  rw [wrap, modulus_eq_two_pow]

/-- To wrap around is to keep the bits of the mask. -/
theorem wrap_eq_land (kind : CellKind) (value : Int) :
    kind.wrap value = Int.land value kind.mask := by
  rw [wrap_eq_emod, ← land_two_pow_sub_one]
  rfl

theorem toByte_eq_land (kind : CellKind) (value : Int) :
    kind.toByte value = Int.land value 0xFF :=
  (land_two_pow_sub_one value 8).symm

theorem wrap_eq_iff (kind : CellKind) {value result : Int} :
    kind.wrap value = result ↔
      0 ≤ result ∧ result < 2 ^ kind.bits ∧ result ≡ value [ZMOD 2 ^ kind.bits] := by
  rw [wrap_eq_emod, emod_eq_iff_modEq (Int.pow_pos (by decide))]

theorem wrap_wrap_add (kind : CellKind) (value change : Int) :
    kind.wrap (kind.wrap value + change) = kind.wrap (value + change) :=
  Int.emod_add_emod value kind.modulus change

/-- Of a byte that was read into a cell, the bits that both have come out again. -/
theorem toByte_fromByte (kind : CellKind) (byte : Int) :
    kind.toByte (kind.fromByte byte) = byte % 2 ^ min kind.bits 8 := by
  have hbyte : kind.toByte (kind.fromByte byte) = byte % 2 ^ kind.bits % 2 ^ 8 := by
    rw [fromByte, wrap_eq_emod]
    rfl
  have hpos : (0 : Int) < 2 ^ kind.bits := Int.pow_pos (by decide)
  rw [hbyte]
  rcases Nat.le_total kind.bits 8 with hnarrow | hwide
  · -- a narrow cell holds no more than a byte
    have hlt : byte % 2 ^ kind.bits < 2 ^ 8 :=
      Int.lt_of_lt_of_le (Int.emod_lt_of_pos byte hpos)
        (Int.le_of_dvd (by decide) (pow_dvd_pow 2 hnarrow))
    rw [Int.emod_eq_of_lt (Int.emod_nonneg byte hpos.ne') hlt, Nat.min_eq_left hnarrow]
  · rw [Int.emod_emod_of_dvd byte (pow_dvd_pow 2 hwide), Nat.min_eq_right hwide]

end CellKind

/-! ## One call after another -/

/-- A call that changes a value by one. -/
inductive CellCall where
  /-- One more. -/
  | increment
  /-- One less. -/
  | decrement
deriving DecidableEq, Repr

/-- By how much a call changes a value that does not wrap around. -/
def CellCall.change : CellCall → Int
  | increment => 1
  | decrement => -1

/-- By how much some calls change a value that does not wrap around. -/
def netChange (calls : List CellCall) : Int :=
  calls.count .increment - calls.count .decrement

@[simp] theorem netChange_nil : netChange [] = 0 := rfl

@[simp] theorem netChange_cons (call : CellCall) (calls : List CellCall) :
    netChange (call :: calls) = call.change + netChange calls := by
  cases call <;> simp [netChange, CellCall.change] <;> omega

namespace CellKind

/-- What a call makes of a value. -/
def call (kind : CellKind) (value : Int) : CellCall → Int
  | .increment => kind.increment value
  | .decrement => kind.decrement value

/-- What some calls make of a value, one after the other. -/
def callAll (kind : CellKind) (value : Int) (calls : List CellCall) : Int :=
  calls.foldl kind.call value

theorem call_eq_wrap (kind : CellKind) (value : Int) (call : CellCall) :
    kind.call value call = kind.wrap (value + call.change) := by
  cases call <;> rfl

/-- Some calls lead to the value that their sum leads to. -/
theorem callAll_eq_wrap (kind : CellKind) (value : Int) {calls : List CellCall} (h : calls ≠ []) :
    kind.callAll value calls = kind.wrap (value + netChange calls) := by
  induction calls generalizing value with
  | nil => exact absurd rfl h
  | cons call rest ih =>
    rw [callAll, List.foldl_cons, call_eq_wrap, netChange_cons, ← Int.add_assoc]
    -- the other calls start from a value that is wrapped around already
    by_cases hrest : rest = []
    · rw [hrest, List.foldl_nil, netChange_nil, Int.add_zero]
    · exact (ih (kind.wrap (value + call.change)) hrest).trans
        (kind.wrap_wrap_add (value + call.change) (netChange rest))

/-- The order of the calls does not matter. -/
theorem callAll_perm (kind : CellKind) (value : Int) {calls calls' : List CellCall}
    (h : calls.Perm calls') : kind.callAll value calls = kind.callAll value calls' := by
  by_cases hcalls : calls = []
  · subst hcalls
    rw [← h.nil_eq]
  · have hcalls' : calls' ≠ [] := fun hnil => hcalls (hnil ▸ h).eq_nil
    rw [kind.callAll_eq_wrap value hcalls, kind.callAll_eq_wrap value hcalls', netChange, netChange,
      h.count_eq, h.count_eq]

/-- The values of a cell. -/
def values (kind : CellKind) : Set Int := {value | 0 ≤ value ∧ value < 2 ^ kind.bits}

theorem wrap_mem_values (kind : CellKind) (value : Int) : kind.wrap value ∈ kind.values := by
  obtain ⟨hnonneg, hlt, -⟩ := kind.wrap_eq_iff.mp (rfl : kind.wrap value = _)
  exact ⟨hnonneg, hlt⟩

theorem wrap_of_mem_values (kind : CellKind) {value : Int} (h : value ∈ kind.values) :
    kind.wrap value = value :=
  kind.wrap_eq_iff.mpr ⟨h.1, h.2, Int.ModEq.refl value⟩

/-- Calls that add up to nothing leave a value of the cell as it is. -/
theorem callAll_of_netChange_eq_zero (kind : CellKind) {value : Int} (hvalue : value ∈ kind.values)
    (calls : List CellCall) (hcalls : calls ≠ []) (hnet : netChange calls = 0) :
    kind.callAll value calls = value := by
  rw [kind.callAll_eq_wrap value hcalls, hnet, Int.add_zero, kind.wrap_of_mem_values hvalue]

theorem invOn_decrement_increment (kind : CellKind) :
    Set.InvOn kind.decrement kind.increment kind.values kind.values :=
  ⟨fun _ h => kind.callAll_of_netChange_eq_zero h [.increment, .decrement] (by decide) rfl,
    fun _ h => kind.callAll_of_netChange_eq_zero h [.decrement, .increment] (by decide) rfl⟩

theorem bijOn_increment (kind : CellKind) :
    Set.BijOn kind.increment kind.values kind.values :=
  kind.invOn_decrement_increment.bijOn (fun value _ => kind.wrap_mem_values (value + 1))
    fun value _ => kind.wrap_mem_values (value - 1)

theorem bijOn_decrement (kind : CellKind) :
    Set.BijOn kind.decrement kind.values kind.values :=
  kind.invOn_decrement_increment.symm.bijOn (fun value _ => kind.wrap_mem_values (value - 1))
    fun value _ => kind.wrap_mem_values (value + 1)

/-! ## Arithmetic -/

/-- The arithmetic of a kind of cell is that of the integers modulo two to the number of bits. -/
structure Modular (kind : CellKind) : Prop where
  /-- The mask has a one for each bit of a cell. -/
  mask : (kind.mask : Int) = 2 ^ kind.bits - 1
  /-- An operation on a cell keeps the low bits of an integer. -/
  masked : ∀ value, kind.increment value = Int.land (value + 1) kind.mask ∧
    kind.decrement value = Int.land (value - 1) kind.mask ∧
      kind.fromByte value = Int.land value kind.mask ∧ kind.toByte value = Int.land value 0xFF
  /-- What some calls lead to is the one value of the cell that is congruent to the sum. -/
  result : ∀ (value : Int) (calls : List CellCall), calls ≠ [] → ∀ result,
    kind.callAll value calls = result ↔
      0 ≤ result ∧ result < 2 ^ kind.bits ∧
        result ≡ value + calls.count .increment - calls.count .decrement [ZMOD 2 ^ kind.bits]
  /-- Calls in another order lead to the same value. -/
  order : ∀ (value : Int) (calls calls' : List CellCall), calls.Perm calls' →
    kind.callAll value calls = kind.callAll value calls'
  /-- On the values of the cell, a decrement takes back an increment, and the other way round. -/
  inverse : Set.InvOn kind.decrement kind.increment kind.values kind.values
  /-- Every value is one more than exactly one value. -/
  increments : Set.BijOn kind.increment kind.values kind.values
  /-- Every value is one less than exactly one value. -/
  decrements : Set.BijOn kind.decrement kind.values kind.values
  /-- Calls lead to zero exactly if the sum is a multiple of two to the number of bits. -/
  isZero : ∀ (value : Int) (calls : List CellCall), calls ≠ [] →
    (kind.isZero (kind.callAll value calls) ↔
      (2 : Int) ^ kind.bits ∣ value + calls.count .increment - calls.count .decrement)
  /-- The byte of an integer is its residue. -/
  toByte : ∀ value result, kind.toByte value = result ↔
    0 ≤ result ∧ result < 256 ∧ result ≡ value [ZMOD 256]
  /-- Of a byte that was read into a cell, the bits that both have come out again. -/
  toByte_fromByte : ∀ byte, kind.toByte (kind.fromByte byte) = byte % 2 ^ min kind.bits 8

theorem toByte_eq_iff (kind : CellKind) {value result : Int} :
    kind.toByte value = result ↔ 0 ≤ result ∧ result < 256 ∧ result ≡ value [ZMOD 256] :=
  emod_eq_iff_modEq (by decide)

theorem isZero_wrap_iff (kind : CellKind) {value : Int} :
    kind.isZero (kind.wrap value) ↔ (2 : Int) ^ kind.bits ∣ value := by
  rw [isZero, decide_eq_true_iff, wrap_eq_zero_iff, modulus_eq_two_pow]

theorem exists_ofBits_eq_ok {bits : Int} (h : 1 ≤ bits) :
    ∃ kind, ofBits bits = .ok kind ∧ kind.bits = bits :=
  ⟨⟨bits.toNat, by omega, 0⟩, dif_pos h, Int.toNat_of_nonneg (by omega)⟩

/-- Every positive number of bits gives a kind of cell, and its arithmetic is modular. -/
theorem exists_modular_ofBits {bits : Int} (h : 1 ≤ bits) :
    ∃ kind, ofBits bits = .ok kind ∧ kind.bits = bits ∧ kind.Modular := by
  obtain ⟨kind, hkind, hbits⟩ := exists_ofBits_eq_ok h
  exact ⟨kind, hkind, hbits, {
    mask := kind.mask_eq_two_pow_sub_one
    masked := fun value => ⟨kind.wrap_eq_land _, kind.wrap_eq_land _, kind.wrap_eq_land _,
      kind.toByte_eq_land value⟩
    result := by
      intro value calls hcalls result
      rw [kind.callAll_eq_wrap value hcalls, kind.wrap_eq_iff, netChange, Int.add_sub_assoc]
    order := fun value _ _ hperm => kind.callAll_perm value hperm
    inverse := kind.invOn_decrement_increment
    increments := kind.bijOn_increment
    decrements := kind.bijOn_decrement
    isZero := by
      intro value calls hcalls
      rw [kind.callAll_eq_wrap value hcalls, kind.isZero_wrap_iff, netChange, Int.add_sub_assoc]
    toByte := fun _ _ => kind.toByte_eq_iff
    toByte_fromByte := kind.toByte_fromByte }⟩

/-- A cell of three bits, counted up once and down twice from below its values. -/
theorem exists_modular_octal : (1 : Int) ≤ 3 ∧ ∃ kind, ofBits 3 = .ok kind ∧ kind.bits = (3 : Int) ∧
    kind.Modular ∧ kind.callAll (-20) [.decrement, .increment, .decrement] = 3 := by
  obtain ⟨kind, hkind, hbits, hmodular⟩ := exists_modular_ofBits (by decide : (1 : Int) ≤ 3)
  refine ⟨by decide, kind, hkind, hbits, hmodular, ?_⟩
  rw [hmodular.result _ _ (by decide), Int.natCast_inj.mp hbits]
  decide

end CellKind

end Brainfuck
