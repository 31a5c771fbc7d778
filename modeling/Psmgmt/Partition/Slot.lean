import Mathlib
import Psmgmt.Common.TaskId

/-!
# CPU sets, slots and reservations
-/

namespace Psmgmt.Partition

open List Option

/-- `PSCPU_set_t`. -/
abbrev CPUSet : Type := Finset Nat

/-- `PSCPU_MAX`. -/
def cpuMax : Nat := 1024

def bytesForCPUs (num : Nat) : Nat :=
  if num > cpuMax then 0 else if num = 0 then 0 else (num - 1) / 8 + 1

def cpuByte (src : CPUSet) (index : Nat) : UInt8 :=
  UInt8.ofNat (Nat.ofBits (fun bit : Fin 8 => decide (8 * index + bit ∈ src)))

def extract (src : CPUSet) (num : Nat) : List UInt8 := (List.range num).map (cpuByte src)

def inject (dest : CPUSet) (src : List UInt8) (num : Nat) : CPUSet :=
  let bytes := if num > cpuMax / 8 then cpuMax / 8 else num
  dest.filter (8 * bytes ≤ ·) ∪ (Finset.range (8 * bytes)).filter
      (fun cpu => (src.getD (cpu / 8) 0).toNat.testBit (cpu % 8) = true)

theorem testBit_cpuByte (src : CPUSet) (index bit : Nat) (bound : bit < 8) :
    (cpuByte src index).toNat.testBit bit = decide (8 * index + bit ∈ src) := by
  have small : Nat.ofBits (fun bit : Fin 8 =>
      decide (8 * index + bit ∈ src)) < 2 ^ 8 := Nat.ofBits_lt_two_pow _
  have value : (cpuByte src index).toNat =
      Nat.ofBits (fun bit : Fin 8 => decide (8 * index + bit ∈ src)) := by
    rw [cpuByte, UInt8.toNat_ofNat']
    exact Nat.mod_eq_of_lt small
  rw [value, Nat.testBit_ofBits_lt _ _ bound]

theorem inject_extract {src : CPUSet} {num : Nat} (most : num ≤ cpuMax / 8)
    (covered : ∀ cpu ∈ src, cpu < 8 * num) :
    inject ∅ (extract src num) num = src := by
  have bytes : (if num > cpuMax / 8 then cpuMax / 8 else num) = num :=
    if_neg (Nat.not_lt.mpr most)
  ext cpu
  simp only [inject, bytes, Finset.filter_empty, Finset.empty_union,
    Finset.mem_filter, Finset.mem_range]
  constructor
  · rintro ⟨bound, bit⟩
    have index : cpu / 8 < num := by omega
    rw [extract, getD_eq_getElem?_getD, getElem?_map,
      getElem?_range index, map_some, getD_some,
      testBit_cpuByte src _ _ (Nat.mod_lt _ (by decide)),
      Nat.div_add_mod] at bit
    exact of_decide_eq_true bit
  · intro member
    have bound := covered cpu member
    have index : cpu / 8 < num := by omega
    refine ⟨bound, ?_⟩
    rw [extract, getD_eq_getElem?_getD, getElem?_map,
      getElem?_range index, map_some, getD_some,
      testBit_cpuByte src _ _ (Nat.mod_lt _ (by decide)), Nat.div_add_mod]
    exact decide_eq_true member

@[simp] theorem length_extract (src : CPUSet) (num : Nat) : (extract src num).length = num := by
  simp [extract]

/-- `PSpart_slot_t`. -/
structure Slot where
  node : Nat
  cpuSet : CPUSet
  deriving DecidableEq

/-- The flags of `PSpart_option_t` used for reservations. -/
structure Options where
  overbook : Bool
  nodeFirst : Bool
  dynamic : Bool
  wait : Bool
  dflt : Bool
  dummy : Bool
  deriving DecidableEq, Repr

/-- `PSrsrvtn_t`; `request` tells its instances apart as the addresses do. -/
structure Reservation where
  request : Nat
  task : TaskId
  requester : TaskId
  nMin : Nat
  nMax : Nat
  ppn : Nat
  tpp : Nat
  hwType : Nat
  options : Options
  rid : Int
  firstRank : Nat
  rankOffset : Nat
  nSlots : Nat
  slots : Option (List Slot)
  nextSlot : Nat
  relSlots : Nat
  checked : Bool
  dynSent : Bool
  deriving DecidableEq

end Psmgmt.Partition
