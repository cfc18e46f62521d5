/-
**Segment descriptors: `gdt/gdt.c`.**

* `gdtStructuredToGdt` — packs a table of segments into descriptors, and stops at the first limit it cannot
  pack.
* `Decodes descriptor entry` — what the processor reads out of the descriptor: base, byte limit, access.
* `packs_exactly` — the call returns 0 exactly if every limit is at most `0xFFFF` or ends in twelve ones;
  every descriptor it has written decodes to its entry, and it writes no other.
-/

import KernelPlay.Config
import Mathlib.Data.Nat.Bitwise

namespace KernelPlay

/-- `gdt_t`. -/
structure Gdt where
  limitFirst : UInt16
  baseFirst : UInt16
  base : UInt8
  accessType : UInt8
  flagsAndLimit : UInt8
  base2431Bits : UInt8
  deriving DecidableEq, Repr

/-- `gdt_structured_t`. -/
structure GdtStructured where
  base : UInt32
  limit : UInt32
  accessType : UInt8
  deriving DecidableEq, Repr

/-- The limit cannot be packed. -/
def rejectsLimit (limit : UInt32) : Bool := limit > 0xFFFF && limit &&& 0xFFF != 0xFFF

/-- The fields written for one segment. -/
def gdtPack (entry : GdtStructured) : Gdt :=
  let limit := if entry.limit > 0xFFFF then entry.limit >>> 12 else entry.limit
  let flags : UInt8 := if entry.limit > 0xFFFF then 0xC0 else 0x40
  { limitFirst := (limit &&& 0xFFFF).toUInt16
    baseFirst := (entry.base &&& 0xFFFF).toUInt16
    base := ((entry.base >>> 16) &&& 0xFF).toUInt8
    accessType := entry.accessType
    flagsAndLimit := flags ||| ((limit >>> 16) &&& 0x0F).toUInt8
    base2431Bits := ((entry.base >>> 24) &&& 0xFF).toUInt8 }

/-- The loop, by the entries left and the index of the next. -/
def gdtStructuredToGdtLoop (gdtS : Nat → GdtStructured) : Nat → Nat → (Nat → Gdt) → Int × (Nat → Gdt)
  | 0, _, gdt => (0, gdt)
  | left + 1, i, gdt =>
    if rejectsLimit (gdtS i).limit then (-einvarg, gdt)
    else gdtStructuredToGdtLoop gdtS left (i + 1) (Function.update gdt i (gdtPack (gdtS i)))

def gdtStructuredToGdt (gdt : Nat → Gdt) (gdtS : Nat → GdtStructured) (totalEntries : Nat) :
    Int × (Nat → Gdt) :=
  gdtStructuredToGdtLoop gdtS totalEntries 0 gdt

/-! ### What the processor reads -/

namespace Gdt

/-- The base from its three pieces. -/
def segmentBase (descriptor : Gdt) : Nat :=
  descriptor.baseFirst.toNat + descriptor.base.toNat <<< 16 + descriptor.base2431Bits.toNat <<< 24

/-- The limit of 20 bits. -/
def segmentLimit (descriptor : Gdt) : Nat :=
  descriptor.limitFirst.toNat + (descriptor.flagsAndLimit.toNat % 16) <<< 16

/-- The granularity bit. -/
def granular (descriptor : Gdt) : Bool := descriptor.flagsAndLimit.toNat.testBit 7

/-- The limit in bytes. -/
def byteLimit (descriptor : Gdt) : Nat :=
  if descriptor.granular then descriptor.segmentLimit <<< 12 ||| 0xFFF else descriptor.segmentLimit

end Gdt

/-- **The descriptor is the segment's.** -/
structure Decodes (descriptor : Gdt) (entry : GdtStructured) : Prop where
  base : descriptor.segmentBase = entry.base.toNat
  limit : descriptor.byteLimit = entry.limit.toNat
  access : descriptor.accessType = entry.accessType

/-- The limit can be packed. -/
def Packable (limit : UInt32) : Prop := limit.toNat ≤ 0xFFFF ∨ limit.toNat % 4096 = 0xFFF

instance (limit : UInt32) : Decidable (Packable limit) := by
  unfold Packable
  infer_instance

section Fields

variable {entry : GdtStructured}

theorem rejectsLimit_iff (limit : UInt32) : rejectsLimit limit = true ↔ ¬ Packable limit := by
  have large : limit > 0xFFFF ↔ 0xFFFF < limit.toNat := UInt32.lt_iff_toNat_lt
  have ones : limit &&& 0xFFF = 0xFFF ↔ limit.toNat % 4096 = 0xFFF := by
    rw [← UInt32.toNat_inj, UInt32.toNat_and]
    show limit.toNat &&& (2 ^ 12 - 1) = _ ↔ _
    rw [Nat.and_two_pow_sub_one_eq_mod]
    rfl
  unfold rejectsLimit Packable
  rw [Bool.and_eq_true, decide_eq_true_eq, large, bne_iff_ne, ne_eq, ones]
  omega

/-- A nibble beside flags that leave it room. -/
theorem flags_or_nibble {flags nibble : UInt8} (room : flags.toNat % 16 = 0) (low : nibble.toNat < 16) :
    (flags ||| nibble).toNat = flags.toNat + nibble.toNat := by
  have shifted : flags.toNat = (flags.toNat / 16) <<< 4 := by
    rw [Nat.shiftLeft_eq]
    omega
  rw [UInt8.toNat_or, shifted, Nat.shiftLeft_add_eq_or_of_lt low]

theorem limitFirst_toNat (limit : UInt32) : (limit &&& 0xFFFF).toUInt16.toNat = limit.toNat % 65536 := by
  rw [UInt32.toNat_toUInt16, UInt32.toNat_and]
  show (limit.toNat &&& (2 ^ 16 - 1)) % 2 ^ 16 = limit.toNat % 2 ^ 16
  rw [Nat.and_two_pow_sub_one_eq_mod, Nat.mod_mod]

theorem byte_toNat (word : UInt32) (shift : UInt32) (below : shift.toNat < 32) :
    ((word >>> shift) &&& 0xFF).toUInt8.toNat = word.toNat / 2 ^ shift.toNat % 256 := by
  rw [UInt32.toNat_toUInt8, UInt32.toNat_and, UInt32.toNat_shiftRight, Nat.mod_eq_of_lt below,
    Nat.shiftRight_eq_div_pow]
  show (word.toNat / 2 ^ shift.toNat &&& (2 ^ 8 - 1)) % 2 ^ 8 = word.toNat / 2 ^ shift.toNat % 2 ^ 8
  rw [Nat.and_two_pow_sub_one_eq_mod, Nat.mod_mod]

theorem nibble_toNat (limit : UInt32) : ((limit >>> 16) &&& 0x0F).toUInt8.toNat = limit.toNat / 65536 % 16 := by
  rw [UInt32.toNat_toUInt8, UInt32.toNat_and, UInt32.toNat_shiftRight]
  show (limit.toNat >>> 16 &&& (2 ^ 4 - 1)) % 2 ^ 8 = _
  rw [Nat.shiftRight_eq_div_pow, Nat.and_two_pow_sub_one_eq_mod]
  omega

theorem segmentBase_gdtPack : (gdtPack entry).segmentBase = entry.base.toNat := by
  have below := entry.base.toNat_lt
  unfold gdtPack Gdt.segmentBase
  dsimp only
  rw [limitFirst_toNat, byte_toNat _ 16 (by decide), byte_toNat _ 24 (by decide), Nat.shiftLeft_eq,
    Nat.shiftLeft_eq]
  show entry.base.toNat % 65536 + entry.base.toNat / 2 ^ 16 % 256 * 2 ^ 16 +
    entry.base.toNat / 2 ^ 24 % 256 * 2 ^ 24 = _
  omega

/-- The fields of the limit, in whatever unit it is kept. -/
theorem limit_fields {limit : UInt32} {flags : UInt8} (room : flags.toNat % 16 = 0)
    (small : limit.toNat < 1048576) :
    (limit &&& 0xFFFF).toUInt16.toNat +
        ((flags ||| ((limit >>> 16) &&& 0x0F).toUInt8).toNat % 16) <<< 16 = limit.toNat ∧
      (flags ||| ((limit >>> 16) &&& 0x0F).toUInt8).toNat / 16 = flags.toNat / 16 := by
  have nibble := nibble_toNat limit
  rw [flags_or_nibble room (by omega), nibble, limitFirst_toNat, Nat.shiftLeft_eq]
  omega

theorem byteLimit_gdtPack (packable : Packable entry.limit) :
    (gdtPack entry).byteLimit = entry.limit.toNat := by
  have below := entry.limit.toNat_lt
  have large : entry.limit > 0xFFFF ↔ 0xFFFF < entry.limit.toNat := UInt32.lt_iff_toNat_lt
  unfold gdtPack Gdt.byteLimit Gdt.granular Gdt.segmentLimit
  dsimp only
  by_cases pages : entry.limit > 0xFFFF
  · have ones : entry.limit.toNat % 4096 = 0xFFF := packable.resolve_left (by have := large.mp pages; omega)
    have unit : (entry.limit >>> 12).toNat = entry.limit.toNat / 4096 := by
      rw [UInt32.toNat_shiftRight]
      exact Nat.shiftRight_eq_div_pow _ 12
    obtain ⟨limit, flags⟩ := @limit_fields (entry.limit >>> 12) 0xC0 rfl (by omega)
    have granular : ((0xC0 : UInt8) ||| ((entry.limit >>> 12 >>> 16) &&& 0x0F).toUInt8).toNat.testBit 7 =
        true := by
      rw [Nat.testBit_eq_decide_div_mod_eq, decide_eq_true_eq]
      change _ = 192 / 16 at flags
      omega
    rw [if_pos pages, if_pos pages, if_pos granular, limit, unit,
      ← Nat.shiftLeft_add_eq_or_of_lt (show 0xFFF < 2 ^ 12 by decide), Nat.shiftLeft_eq]
    omega
  · obtain ⟨limit, flags⟩ := @limit_fields entry.limit 0x40 rfl (by have := mt large.mpr pages; omega)
    have fine : ((0x40 : UInt8) ||| ((entry.limit >>> 16) &&& 0x0F).toUInt8).toNat.testBit 7 = false := by
      rw [Nat.testBit_eq_decide_div_mod_eq, decide_eq_false_iff_not]
      change _ = 64 / 16 at flags
      omega
    rw [if_neg pages, if_neg pages, fine, if_neg Bool.false_ne_true, limit]

/-- **A packed descriptor is the segment's.** -/
theorem decodes_gdtPack (packable : Packable entry.limit) : Decodes (gdtPack entry) entry :=
  ⟨segmentBase_gdtPack, byteLimit_gdtPack packable, rfl⟩

/-- The kernel's code segment. -/
example : gdtPack ⟨0, 0xFFFFFFFF, 0x9A⟩ = ⟨0xFFFF, 0, 0, 0x9A, 0xCF, 0⟩ := by decide

end Fields

/-! ### The table -/

section Table

variable {gdtS : Nat → GdtStructured} {gdt : Nat → Gdt}

/-- The descriptors before `stop` are those of their segments, the others as they were. -/
structure PackedUpTo (gdtS : Nat → GdtStructured) (gdt : Nat → Gdt) (stop : Nat) (packed : Nat → Gdt) :
    Prop where
  packable : ∀ i, i < stop → Packable (gdtS i).limit
  written : ∀ i, i < stop → packed i = gdtPack (gdtS i)
  kept : ∀ i, stop ≤ i → packed i = gdt i

/-- **The loop** stops behind the last entry, or at one it cannot pack. -/
theorem packs_loop :
    ∀ (left i : Nat) (now : Nat → Gdt), PackedUpTo gdtS gdt i now →
      (∃ packed, gdtStructuredToGdtLoop gdtS left i now = (0, packed) ∧
          PackedUpTo gdtS gdt (i + left) packed) ∨
        ∃ stop packed, gdtStructuredToGdtLoop gdtS left i now = (-einvarg, packed) ∧ stop < i + left ∧
          ¬ Packable (gdtS stop).limit ∧ PackedUpTo gdtS gdt stop packed := by
  intro left
  induction left with
  | zero => exact fun i now upto => .inl ⟨now, rfl, upto⟩
  | succ left ih =>
    intro i now upto
    rw [gdtStructuredToGdtLoop]
    split_ifs with rejected
    · exact .inr ⟨i, now, rfl, by omega, (rejectsLimit_iff _).mp rejected, upto⟩
    · have packable : Packable (gdtS i).limit := by
        by_contra unpackable
        exact rejected ((rejectsLimit_iff _).mpr unpackable)
      have next : PackedUpTo gdtS gdt (i + 1) (Function.update now i (gdtPack (gdtS i))) := by
        refine ⟨fun j below => ?_, fun j below => ?_, fun j behind => ?_⟩
        · rcases Nat.lt_succ_iff_lt_or_eq.mp below with before | rfl
          · exact upto.packable j before
          · exact packable
        · rcases Nat.lt_succ_iff_lt_or_eq.mp below with before | rfl
          · rw [Function.update_of_ne (by omega), upto.written j before]
          · exact Function.update_self ..
        · rw [Function.update_of_ne (by omega), upto.kept j (by omega)]
      rw [show i + (left + 1) = i + 1 + left by omega]
      exact ih (i + 1) _ next

/-- **`gdt_structured_to_gdt` packs exactly the tables it can**: it returns 0 if every limit can be packed,
and stops at the first that cannot; the descriptors in front are those of their segments, the others as they
were. -/
theorem packs_exactly (gdt : Nat → Gdt) (gdtS : Nat → GdtStructured) (totalEntries : Nat) :
    ((gdtStructuredToGdt gdt gdtS totalEntries).1 = 0 ↔
        ∀ i, i < totalEntries → Packable (gdtS i).limit) ∧
      ((gdtStructuredToGdt gdt gdtS totalEntries).1 = 0 →
        ∀ i, i < totalEntries → Decodes ((gdtStructuredToGdt gdt gdtS totalEntries).2 i) (gdtS i)) ∧
      ((gdtStructuredToGdt gdt gdtS totalEntries).1 ≠ 0 →
        (gdtStructuredToGdt gdt gdtS totalEntries).1 = -einvarg ∧
        ∃ stop, stop < totalEntries ∧ ¬ Packable (gdtS stop).limit ∧
          (∀ i, i < stop → Packable (gdtS i).limit ∧
            Decodes ((gdtStructuredToGdt gdt gdtS totalEntries).2 i) (gdtS i)) ∧
          ∀ i, stop ≤ i → (gdtStructuredToGdt gdt gdtS totalEntries).2 i = gdt i) := by
  have start : PackedUpTo gdtS gdt 0 gdt :=
    ⟨fun i below => absurd below (Nat.not_lt_zero i), fun i below => absurd below (Nat.not_lt_zero i),
      fun i _ => rfl⟩
  have decodes {stop : Nat} {packed : Nat → Gdt} (upto : PackedUpTo gdtS gdt stop packed) (i : Nat)
      (below : i < stop) : Decodes (packed i) (gdtS i) := by
    rw [upto.written i below]
    exact decodes_gdtPack (upto.packable i below)
  unfold gdtStructuredToGdt
  rcases packs_loop totalEntries 0 gdt start with ⟨packed, returns, upto⟩ | ⟨stop, packed, returns, inside,
    unpackable, upto⟩
  · rw [Nat.zero_add] at upto
    rw [returns]
    exact ⟨iff_of_true rfl upto.packable, fun _ => decodes upto, fun fails => absurd rfl fails⟩
  · rw [Nat.zero_add] at inside
    have fails : -einvarg ≠ 0 := by decide
    rw [returns]
    refine ⟨iff_of_false fails fun all => unpackable (all stop inside), fun zero => absurd zero fails, fun _ =>
      ⟨rfl, stop, inside, unpackable, fun i below => ⟨upto.packable i below, decodes upto i below⟩, upto.kept⟩⟩

end Table

end KernelPlay
