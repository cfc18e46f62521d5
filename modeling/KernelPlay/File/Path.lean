/-
**The path parser of `fs/pparser.c`.**

A path is the memory from its first character on: `validate_start_of_path` steps over two characters
that may lie behind the terminator, and the parser then reads on from there. The chain of
`path_part_t` is a list; every record and every name in it is a record of the heap.
-/

import KernelPlay.Kernel.State
import Mathlib.Data.List.TakeWhile

namespace KernelPlay

open KernelPlay.Library

/-- The address space. -/
def memoryTurns : Nat := 4294967296

/-- A string in memory: its text, a terminator, and what lies behind. -/
structure CString where
  text : Text
  behind : Nat → UInt8
  fits : text.chars.length < memoryTurns

namespace CString

variable (s : CString)

def strlen : Nat := s.text.chars.length

def charAt (index : Nat) : UInt8 :=
  if index ≤ s.strlen then s.text.chars.getD index 0 else s.behind (index - s.strlen - 1)

end CString

/-- The string that begins with these characters. -/
def Text.ofChars (chars : List UInt8) : Text where
  chars := chars.takeWhile (· ≠ 0)
  noNul member := by simpa using List.mem_takeWhile_imp member

def pparserMaxPath : Nat := 256

def isDigit (c : UInt8) : Bool := 48 ≤ c && c ≤ 57

def charToNumeric (c : UInt8) : Int := (c.toNat : Int) - 48

section Code

variable (machine : Machine) (pathStr : CString)

/-- `memcmp` against the two characters of `":/"`, which are compared as `char`. -/
def validateStartOfPath (p : Nat) : Except Int Nat :=
  let byte (index : Nat) : Int := Int.bmod (pathStr.charAt (p + index)).toNat 256
  let r : Int :=
    if 58 ≠ byte 0 then if 58 < byte 0 then -1 else 1
    else if 47 ≠ byte 1 then if 47 < byte 1 then -1 else 1
    else 0
  if r < 0 then .error (-einvarg) else .ok (p + 2)

def pparserParseDriveNo (p : Nat) : Except Int (Int × Nat) :=
  let firstByte := pathStr.charAt p
  if ¬ isDigit firstByte then .error (-einvarg) else .ok (charToNumeric firstByte, p + 1)

/-- The characters in front of the next `/` or terminator. -/
def pparserNameLen : Nat → Nat → Option Nat
  | 0, _ => none
  | turns + 1, p =>
    if pathStr.charAt p ≠ 47 ∧ pathStr.charAt p ≠ 0 then (pparserNameLen turns (p + 1)).map (· + 1)
    else some 0

/-- The parts from the record `pathPart` on. The parser never returns an error here. -/
def pparserParsePathParts : Nat → Kheap → Nat → Ptr → Except Fault (List PathPart × Kheap)
  | 0, _, _, _ => .error .diverges
  | turns + 1, heap, p, pathPart =>
    match pparserNameLen pathStr memoryTurns p with
    | none => .error .diverges
    | some nameLen => do
      let (name, heap) := Store.zalloc machine.allocator heap (nameLen + 1) .name
      if name = 0 then .error .nullDeref
      else if pathPart = 0 then .error .nullDeref
      else
        let part : PathPart := ⟨pathPart, name, Text.ofChars (window pathStr.charAt p nameLen)⟩
        if pathStr.charAt (p + nameLen) = 0 then return ([part], heap)
        else
          let (nextPart, heap) := Store.zalloc machine.allocator heap 8 .pathPart
          let (rest, heap) ← pparserParsePathParts turns heap (p + nameLen + 1) nextPart
          return (part :: rest, heap)

/-- The status and the heap. The length is kept as an `int`. -/
def pparserParsePathRoot (heap : Kheap) (pathRoot : Ptr) : Except Fault (Int × Kheap) :=
  if int32 pathStr.strlen > pparserMaxPath then .ok (-einvarg, heap)
  else
    match pparserParseDriveNo pathStr 0 with
    | .error r => .ok (r, heap)
    | .ok (driveNo, p) =>
      match validateStartOfPath pathStr p with
      | .error r => .ok (r, heap)
      | .ok p => do
        let (pathPart, heap) := Store.zalloc machine.allocator heap 8 .pathPart
        let (parts, heap) ← pparserParsePathParts machine pathStr memoryTurns heap p pathPart
        if pathRoot = 0 then .error .nullDeref
        else return (0, heap.put pathRoot (.pathRoot ⟨driveNo, parts⟩))

end Code

/-! ### Where a path starts -/

section Start

variable {machine : Machine} {pathStr : CString} {heap : Kheap} {pathRoot : Ptr}

/-- The drive of an accepted path, and where its components begin. -/
def pathStart (pathStr : CString) : Option (Int × Nat) :=
  if int32 pathStr.strlen > pparserMaxPath then none
  else
    match pparserParseDriveNo pathStr 0 with
    | .error _ => none
    | .ok (driveNo, p) =>
      match validateStartOfPath pathStr p with
      | .error _ => none
      | .ok p => some (driveNo, p)

theorem parseDriveNo_error {p : Nat} {r : Int} (failed : pparserParseDriveNo pathStr p = .error r) :
    r < 0 := by
  unfold pparserParseDriveNo at failed
  dsimp only at failed
  split_ifs at failed
  cases failed
  decide

theorem validateStart_error {p : Nat} {r : Int} (failed : validateStartOfPath pathStr p = .error r) :
    r < 0 := by
  unfold validateStartOfPath at failed
  dsimp only at failed
  split_ifs at failed <;> (cases failed; decide)

/-- **A path refused at its start** takes no request. -/
theorem parseRoot_rejected (start : pathStart pathStr = none) :
    ∃ status, status < 0 ∧
      pparserParsePathRoot machine pathStr heap pathRoot = .ok (status, heap) := by
  unfold pathStart at start
  unfold pparserParsePathRoot
  by_cases long : int32 pathStr.strlen > pparserMaxPath
  · rw [if_pos long]
    exact ⟨_, by decide, rfl⟩
  rw [if_neg long] at start ⊢
  rcases drive : pparserParseDriveNo pathStr 0 with r | ⟨driveNo, p⟩
  · exact ⟨r, parseDriveNo_error drive, rfl⟩
  rw [drive] at start
  dsimp only at start ⊢
  rcases begun : validateStartOfPath pathStr p with r | p
  · exact ⟨r, validateStart_error begun, rfl⟩
  · rw [begun] at start
    cases start

/-- **A path accepted at its start** is parsed from there. -/
theorem parseRoot_started {driveNo : Int} {p : Nat} (start : pathStart pathStr = some (driveNo, p)) :
    pparserParsePathRoot machine pathStr heap pathRoot =
      let first := Store.zalloc machine.allocator heap 8 .pathPart
      pparserParsePathParts machine pathStr memoryTurns first.2 p first.1 >>= fun parsed =>
        if pathRoot = 0 then .error .nullDeref
        else .ok (0, parsed.2.put pathRoot (.pathRoot ⟨driveNo, parsed.1⟩)) := by
  unfold pathStart at start
  unfold pparserParsePathRoot
  by_cases long : int32 pathStr.strlen > pparserMaxPath
  · rw [if_pos long] at start
    cases start
  rw [if_neg long] at start ⊢
  rcases drive : pparserParseDriveNo pathStr 0 with r | ⟨first, second⟩
  · rw [drive] at start
    cases start
  rw [drive] at start
  dsimp only at start ⊢
  rcases begun : validateStartOfPath pathStr second with r | third
  · rw [begun] at start
    cases start
  · rw [begun] at start
    cases start
    rfl

end Start

end KernelPlay
