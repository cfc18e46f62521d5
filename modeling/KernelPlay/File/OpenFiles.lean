/-
**Open files: what the calls of `fs/file.c` mean.**

`FileStep` — the calls as a caller sees them: a file is its bytes, a handle is a file with a position, and
there is nothing else. `Sensible` — the calls the driver makes good on: paths that lead to a stored file or
nowhere, reads inside the file, seeks that fit, handles below the last slot. `volumeCatalogue` — the paths of
a volume with a directory tree; `Leads.resolves` and `Lacks.resolves` find where they lead. A read inside a
file writes exactly its part of the bytes (`read_storedBytes`), and `seekResult_means` says where a seek goes.
-/

import KernelPlay.File.Independence

namespace KernelPlay

open KernelPlay.Library

/-! ### Open files -/

/-- The open files by handle: the bytes of each and the position in it. -/
abbrev OpenFiles := Int → Option (List UInt8 × Nat)

/-- The paths of a volume: those that lead to a file, with its bytes, and those that lead nowhere. -/
structure Catalogue where
  file : CString → List UInt8 → Prop
  nothing : CString → Prop

/-- The least handle that is not open. -/
structure NextHandle (files : OpenFiles) (fd : Int) : Prop where
  positive : 1 ≤ fd
  free : files fd = none
  least : ∀ other, 1 ≤ other → other < fd → files other ≠ none

/-- What a call on a handle that is not open returns. -/
def FileOp.refusal : FileOp → Answer
  | .fopen .. => .handle 0
  | .fread out .. => .read ⟨-eio, out, []⟩
  | .fstat _ => .stat (-eio) none
  | _ => .status (-eio)

/-- A read of nothing. -/
def FileOp.Empty : FileOp → Prop
  | .fread _ size nmemb _ => size = 0 ∨ nmemb = 0
  | _ => False

/-- **What the calls mean.** A read delivers the bytes at the position and leaves it there. -/
inductive FileStep (catalogue : Catalogue) (files : OpenFiles) : FileOp × Answer → OpenFiles → Prop
  | opens {filename modeStr : CString} {contents : List UInt8} {fd : Int} : getFileMode modeStr = .read →
      catalogue.file filename contents → NextHandle files fd →
      FileStep catalogue files (.fopen filename modeStr, .handle fd)
        (Function.update files fd (some (contents, 0)))
  | opensNothing {filename modeStr : CString} : getFileMode modeStr ≠ .read ∨ catalogue.nothing filename →
      FileStep catalogue files (.fopen filename modeStr, .handle 0) files
  | seeks {fd offset target : Int} {whence pos : Nat} {contents : List UInt8} :
      files fd = some (contents, pos) → SeeksTo pos offset whence target → 0 ≤ target →
      target ≤ contents.length →
      FileStep catalogue files (.fseek fd offset whence, .status ok)
        (Function.update files fd (some (contents, target.toNat)))
  | seeksNowhere {fd offset : Int} {whence pos : Nat} {contents : List UInt8} :
      files fd = some (contents, pos) →
      (∀ target, SeeksTo pos offset whence target → ¬ (0 ≤ target ∧ target ≤ contents.length)) →
      FileStep catalogue files (.fseek fd offset whence, .status (-eio)) files
  | reads {fd : Int} {size nmemb pos : Nat} {contents : List UInt8} {out : Nat → UInt8} {read : FileRead} :
      files fd = some (contents, pos) → 1 ≤ size → 1 ≤ nmemb → read.res = ok →
      read.out = overwrite out 0 ((contents.drop pos).take (size * nmemb)) →
      FileStep catalogue files (.fread out size nmemb fd, .read read) files
  | readsNothing {fd : Int} {size nmemb : Nat} {out : Nat → UInt8} : size = 0 ∨ nmemb = 0 →
      FileStep catalogue files (.fread out size nmemb fd, .read ⟨-einvarg, out, []⟩) files
  | stats {fd : Int} {pos : Nat} {contents : List UInt8} : files fd = some (contents, pos) →
      FileStep catalogue files
        (.fstat fd, .stat ok (some ⟨fileStatReadOnly, UInt32.ofNat contents.length⟩)) files
  | closes {fd : Int} {pos : Nat} {contents : List UInt8} : files fd = some (contents, pos) →
      FileStep catalogue files (.fclose fd, .status ok) (Function.update files fd none)
  | refuses {op : FileOp} {fd : Int} : op.handle = some fd → files fd = none → ¬ op.Empty →
      FileStep catalogue files (op, op.refusal) files

/-- The path ends in memory. -/
def CString.Ends (filename : CString) : Prop :=
  ∀ driveNo p, pathStart filename = some (driveNo, p) → components filename memoryTurns p ≠ none

/-- **The calls the driver makes good on.** -/
def Sensible (catalogue : Catalogue) (files : OpenFiles) : FileOp → Prop
  | .fopen filename modeStr => filename.Ends ∧
      (getFileMode modeStr ≠ .read ∨ catalogue.nothing filename ∨
        (∃ contents, catalogue.file filename contents) ∧
          ∃ fd, NextHandle files fd ∧ fd < maxFiledescriptors)
  | .fseek fd offset whence => 1 ≤ fd ∧ (-2147483648 ≤ offset ∧ offset < 2147483648) ∧
      ∀ contents pos, files fd = some (contents, pos) → SeekFits contents.length pos offset whence
  | .fread _ size nmemb fd => 1 ≤ fd ∧
      ∀ contents pos, files fd = some (contents, pos) → pos + size * nmemb ≤ contents.length
  | .fstat fd => 1 ≤ fd
  | .fclose fd => 1 ≤ fd

/-! ### The paths of a volume -/

/-- **The path leads nowhere**, and the walk ends there: the last of its components is missing in its
directory, or one in front of it is a file. -/
inductive Lacks : DirTree → Text → List Text → Prop
  | missing {entries : List FatDirectoryItem} {child : FatDirectoryItem → DirTree} {name : Text} :
      (∀ entry ∈ entries, ¬ entry.Named name.chars) → Lacks (.directory entries child) name []
  | file {entries : List FatDirectoryItem} {child : FatDirectoryItem → DirTree} {name further : Text}
      {rest : List Text} {entry : FatDirectoryItem} : entry ∈ entries → entry.Named name.chars →
      ¬ entry.IsDirectory → Lacks (.directory entries child) name (further :: rest)
  | next {entries : List FatDirectoryItem} {child : FatDirectoryItem → DirTree} {name further : Text}
      {rest : List Text} {entry : FatDirectoryItem} : entry ∈ entries → entry.Named name.chars →
      ¬ Dotted name.chars → entry.IsDirectory → Lacks (child entry) further rest →
      Lacks (.directory entries child) name (further :: rest)

/-- The bytes of a stored file. -/
def storedBytes (drive : Drive) (fatPrivate : FatPrivate) (entry : FatDirectoryItem) (length : Nat) :
    List UInt8 :=
  (entryContents drive fatPrivate entry length).take entry.filesize.toNat

/-- **The paths of a volume with a directory tree.** A path that is rejected, of another drive, or whose
first component is missing, leads nowhere too. -/
def volumeCatalogue (drive : Drive) (fatPrivate : FatPrivate) (tree : DirTree) : Catalogue where
  file filename contents := ∃ p name rest entry sub length, pathStart filename = some (0, p) ∧
    components filename memoryTurns p = some (name :: rest) ∧ Leads tree name rest entry sub ∧
    ¬ entry.IsDirectory ∧ StoredFile drive fatPrivate entry length ∧
    contents = storedBytes drive fatPrivate entry length
  nothing filename := ∀ p name rest, pathStart filename = some (0, p) →
    components filename memoryTurns p = some (name :: rest) →
      Lacks tree name rest ∨ ∀ entry ∈ tree.entries, ¬ entry.Named name.chars

section Walk

variable {machine : Machine} {fatPrivate : FatPrivate} {entry target : FatDirectoryItem}
  {tree sub : DirTree} {name : Text} {rest : List Text}

theorem arrivedAt_built {call : Nat} {view : ItemView} (granted : machine.allocator.grants call 8 = true)
    (built : builtAt machine fatPrivate entry call = .ok (some view)) :
    arrivedAt machine fatPrivate entry call = .ok (.item view) := by
  unfold arrivedAt
  rw [if_pos granted, built]
  rfl

theorem slotNamed_missing {entries : List FatDirectoryItem}
    (missing : ∀ entry ∈ entries, ¬ entry.Named name.chars) : slotNamed entries name = none :=
  List.find?_eq_none.mpr fun entry member => by simpa using missing entry member

/-- The directory behind an entry of the tree, loaded. -/
theorem LaidOut.loads {entries : List FatDirectoryItem} {child : FatDirectoryItem → DirTree}
    (ample : Ample machine.allocator) (mounted : Mounted machine.drive fatPrivate)
    (laid : LaidOut machine.drive fatPrivate.header (.directory entries child)) (member : entry ∈ entries)
    (named : entry.Named name.chars) (plain : ¬ Dotted name.chars) (directory : entry.IsDirectory)
    (call : Nat) :
    ∃ loaded, arrivedAt machine fatPrivate entry call = .ok (.item (.directory loaded)) ∧
      loaded.slots machine = (child entry).entries ∧
      LaidOut machine.drive fatPrivate.header (child entry) := by
  obtain ⟨view, built, view_of⟩ := built_of_laidOut ample mounted laid member named plain call
  have arrives := arrivedAt_built (ample call 8 (by decide)) built
  cases view_of with
  | file file => exact absurd directory file
  | @directory loaded _ total items =>
    refine ⟨loaded, arrives, slots_of_viewOf (.directory directory total items), ?_⟩
    cases laid with
    | directory _ _ _ below => exact below entry member directory fun dotted => plain (SameName.dotted named dotted)

/-- **The walk to an entry of the tree** ends at its item. -/
theorem Leads.arrives (ample : Ample machine.allocator) (mounted : Mounted machine.drive fatPrivate)
    (leads : Leads tree name rest target sub) :
    LaidOut machine.drive fatPrivate.header tree → ∀ call, ∃ entry view calls,
      slotNamed tree.entries name = some entry ∧
      (arrivedAt machine fatPrivate entry call >>= fun found =>
        walkAt machine fatPrivate (call + requestsAt machine entry call) found rest) =
        .ok (.item view, calls) ∧ ViewOf target sub view := by
  induction leads with
  | @last entries child name entry member named plain =>
    intro laid call
    obtain ⟨view, built, view_of⟩ := built_of_laidOut ample mounted laid member named plain call
    refine ⟨entry, view, call + requestsAt machine entry call, laid.once.slotNamed member named, ?_, view_of⟩
    rw [arrivedAt_built (ample _ _ (by decide)) built]
    rfl
  | @next entries child name further rest entry target sub member named plain directory _ ih =>
    intro laid call
    obtain ⟨loaded, arrives, slots_eq, below⟩ := laid.loads ample mounted member named plain directory call
    obtain ⟨found, view, calls, named', walks, view_of⟩ :=
      ih below (call + requestsAt machine entry call)
    refine ⟨entry, view, calls, laid.once.slotNamed member named, ?_, view_of⟩
    rw [arrives]
    show walkAt machine fatPrivate _ (.item (.directory loaded)) (further :: rest) = _
    rw [walkAt, slots_eq, named']
    exact walks

theorem Leads.resolves (ample : Ample machine.allocator) (mounted : Mounted machine.drive fatPrivate)
    (laid : LaidOut machine.drive fatPrivate.header tree) (leads : Leads tree name rest target sub) (call : Nat) :
    ∃ view calls, resolveAt machine fatPrivate call tree.entries name rest = .ok (.item view, calls) ∧
      ViewOf target sub view := by
  obtain ⟨entry, view, calls, named, walks, view_of⟩ := leads.arrives ample mounted laid call
  exact ⟨view, calls, (resolveAt_granted named (ample _ _ (by decide))).trans walks, view_of⟩

/-- **The walk of a path that leads nowhere** ends with nothing. -/
theorem Lacks.walks (ample : Ample machine.allocator) (mounted : Mounted machine.drive fatPrivate)
    (lacks : Lacks tree name rest) :
    LaidOut machine.drive fatPrivate.header tree → ∀ (loaded : LoadedDirectory),
      loaded.slots machine = tree.entries → ∀ call, ∃ calls,
      walkAt machine fatPrivate call (.item (.directory loaded)) (name :: rest) = .ok (.nothing, calls) := by
  induction lacks with
  | @missing entries child name missing =>
    intro _ loaded same call
    have absent : slotNamed (DirTree.directory entries child).entries name = none := slotNamed_missing missing
    refine ⟨call, ?_⟩
    rw [walkAt, same, absent]
    rfl
  | @file entries child name further rest entry member named file =>
    intro laid loaded same call
    refine ⟨call + requestsAt machine entry call, ?_⟩
    rw [walkAt, same, laid.once.slotNamed member named]
    dsimp only
    rw [arrivedAt_file (ample _ _ (by decide)) file, if_pos (ample _ _ (by decide))]
    rfl
  | @next entries child name further rest entry member named plain directory _ ih =>
    intro laid loaded same call
    obtain ⟨next, arrives, slots_eq, below⟩ := laid.loads ample mounted member named plain directory call
    obtain ⟨calls, walks⟩ := ih below next slots_eq (call + requestsAt machine entry call)
    refine ⟨calls, ?_⟩
    rw [walkAt, same, laid.once.slotNamed member named]
    dsimp only
    rw [arrives]
    exact walks

theorem Lacks.resolves (ample : Ample machine.allocator) (mounted : Mounted machine.drive fatPrivate)
    (laid : LaidOut machine.drive fatPrivate.header tree) (lacks : Lacks tree name rest) (call : Nat) :
    ∃ calls, resolveAt machine fatPrivate call tree.entries name rest = .ok (.nothing, calls) := by
  cases lacks with
  | missing missing => exact ⟨call, resolveAt_missing (slotNamed_missing missing)⟩
  | @file entries child name further rest entry member named file =>
    refine ⟨call + requestsAt machine entry call, ?_⟩
    rw [resolveAt_granted (laid.once.slotNamed member named) (ample _ _ (by decide)),
      arrivedAt_file (ample _ _ (by decide)) file, if_pos (ample _ _ (by decide))]
    rfl
  | @next entries child name further rest entry member named plain directory lacks =>
    obtain ⟨next, arrives, slots_eq, below⟩ := laid.loads ample mounted member named plain directory call
    obtain ⟨calls, walks⟩ := lacks.walks ample mounted below next slots_eq (call + requestsAt machine entry call)
    refine ⟨calls, ?_⟩
    rw [resolveAt_granted (laid.once.slotNamed member named) (ample _ _ (by decide)), arrives]
    exact walks

end Walk

/-! ### The bytes of a file -/

section Bytes

variable {drive : Drive} {fatPrivate : FatPrivate} {entry : FatDirectoryItem} {length : Nat}

theorem storedBytes_length (file : StoredFile drive fatPrivate entry length) :
    (storedBytes drive fatPrivate entry length).length = entry.filesize.toNat := by
  rw [storedBytes, List.length_take, entryContents, fileContents_length]
  exact Nat.min_eq_left file.fits

theorem StoredFile.size_lt (file : StoredFile drive fatPrivate entry length) :
    entry.filesize.toNat < 2147483648 :=
  file.fits.trans_lt (chain_bytes_lt file.mounted file.chain file.below)

/-- **The elements of a read inside the chain** write its part of the contents, and nothing else. -/
theorem elements_overwrite {start : Int} (mounted : Mounted drive fatPrivate)
    (chain : FileChain drive fatPrivate start length)
    (below : ∀ index, index < length →
      fatPrivate.header.Below (fatRoute drive fatPrivate start index)) {size : Nat} (some : 1 ≤ size) :
    ∀ (nmemb offset place : Nat) (out : Nat → UInt8),
      offset + nmemb * size ≤ length * fatPrivate.header.clusterBytes →
      ∃ read, fat16ReadElements fatPrivate drive start size nmemb offset place out = .ok read ∧
        read.res = ok ∧ read.out =
          overwrite out place (((fileContents drive fatPrivate start length).drop offset).take (nmemb * size))
  | 0, offset, place, out, _ => ⟨_, rfl, rfl, by rw [Nat.zero_mul, List.take_zero, overwrite_nil]⟩
  | nmemb + 1, offset, place, out, fits => by
      have short := chain_bytes_lt mounted chain below
      rw [Nat.succ_mul, Nat.add_comm (nmemb * size)] at fits ⊢
      obtain ⟨read, result, succeeds, delivered⟩ :=
        read_contents mounted chain below some (Nat.le_trans (Nat.le_add_right _ _) (Nat.add_assoc .. ▸ fits))
      obtain ⟨rest, rest_result, rest_succeeds, rest_out⟩ :=
        elements_overwrite mounted chain below some nmemb (offset + size) (place + size)
          (overwrite out place read.out) (by omega)
      have total : int32 (size : Int) = size := int32_of_range (by omega) (by omega)
      have next : int32 ((offset : Int) + size) = ((offset + size : Nat) : Int) := by
        rw [int32_of_range (by omega) (by omega), Int.natCast_add]
      have length_out : read.out.length = size := by
        rw [delivered, List.length_take, List.length_drop, fileContents_length]
        omega
      refine ⟨⟨rest.res, rest.out, read.clusters ++ rest.clusters⟩, ?_, rest_succeeds, ?_⟩
      · rw [fat16ReadElements_succ (total.symm ▸ result) succeeds, next, rest_result]
        rfl
      · have joined := overwrite_append out place read.out
          (((fileContents drive fatPrivate start length).drop (offset + size)).take (nmemb * size))
        rw [length_out] at joined
        rw [rest_out, joined, delivered, take_append_take_drop]

/-- A read inside the file writes its part of the bytes. -/
theorem read_storedBytes (file : StoredFile drive fatPrivate entry length) {size nmemb pos : Nat}
    (some : 1 ≤ size) (inside : pos + size * nmemb ≤ entry.filesize.toNat) (out : Nat → UInt8) :
    ∃ read, fat16ReadElements fatPrivate drive (fat16GetFirstCluster entry) size nmemb (int32 pos) 0 out =
        .ok read ∧ read.res = ok ∧
      read.out = overwrite out 0 (((storedBytes drive fatPrivate entry length).drop pos).take (size * nmemb)) := by
  have short := file.size_lt
  have fits := file.fits
  have position : int32 (pos : Int) = pos := int32_of_range (by omega) (by omega)
  have whole : ((storedBytes drive fatPrivate entry length).drop pos).take (size * nmemb) =
      ((entryContents drive fatPrivate entry length).drop pos).take (size * nmemb) := by
    rw [storedBytes, List.drop_take, List.take_take, Nat.min_eq_left (by omega)]
  rw [whole, position, Nat.mul_comm size]
  rw [Nat.mul_comm size] at inside
  exact elements_overwrite file.mounted file.chain file.below some nmemb pos 0 out (by omega)

end Bytes

/-! ### Seeks -/

/-- **A seek that fits** reaches the position it asks for, or asks for none in the file and fails. -/
theorem seekResult_means {filesize pos whence : Nat} {offset : Int} (size : filesize < 2147483648)
    (inside : pos ≤ filesize) (low : -2147483648 ≤ offset) (high : offset < 2147483648)
    (fits : SeekFits filesize pos offset whence) :
    (∃ target, SeeksTo pos offset whence target ∧ 0 ≤ target ∧ target ≤ filesize ∧
        seekResult filesize pos offset whence = (ok, target.toNat)) ∨
      (∀ target, SeeksTo pos offset whence target → ¬ (0 ≤ target ∧ target ≤ filesize)) ∧
        seekResult filesize pos offset whence = (-eio, pos) := by
  have word := uint32_offset low high
  unfold seekResult
  by_cases long : uint32 offset > filesize
  · rw [if_pos long]
    refine .inr ⟨fun target seeks => ?_, rfl⟩
    cases seeks with
    | set => split_ifs at word <;> omega
    | cur =>
      have fits := fits rfl
      split_ifs at word fits <;> omega
  · rw [if_neg long]
    have forwards : 0 ≤ offset := by
      by_contra backwards
      rw [if_neg backwards] at word
      omega
    rw [if_pos forwards] at word
    match whence with
    | 0 =>
      refine .inl ⟨offset, .set, forwards, by omega, Prod.ext rfl ?_⟩
      show uint32 offset = offset.toNat
      omega
    | 1 =>
      have fits := fits rfl
      rw [if_pos forwards] at fits
      refine .inl ⟨pos + offset, .cur, by omega, by omega, Prod.ext rfl ?_⟩
      show uint32 (pos + offset) = (pos + offset).toNat
      unfold uint32
      omega
    | whence + 2 => exact .inr ⟨nofun, rfl⟩

end KernelPlay
