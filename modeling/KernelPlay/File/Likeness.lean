/-
**Volumes that are alike: the calls do not see where a volume keeps its files.**

* `Answer.seen` — an answer without the clusters read for it. `FileStep.seen` — what open files answer depends
  on the paths of the volume alone.
* `Alike` — two trees with the same names, in any order and case, and the same bytes behind them.
  `Alike.catalogue` — the same paths lead to the same bytes in both, and the same nowhere.

`volumes_alike` — wherever their clusters lie, two such volumes answer every sequence of sensible calls alike.
-/

import KernelPlay.File.Refinement

namespace KernelPlay

open KernelPlay.Library

/-! ### What is seen of an answer -/

/-- The clusters read are not seen. -/
def Answer.seen : Answer → Answer
  | .read fileRead => .read { fileRead with clusters := [] }
  | answer => answer

/-- **Each path leads to one file, or nowhere.** -/
structure Catalogue.Definite (catalogue : Catalogue) : Prop where
  once : ∀ {filename contents contents'}, catalogue.file filename contents →
    catalogue.file filename contents' → contents = contents'
  apart : ∀ {filename contents}, catalogue.file filename contents → ¬ catalogue.nothing filename

section Seen

variable {catalogue : Catalogue} {files after after' : OpenFiles} {op : FileOp} {answer answer' : Answer}

theorem NextHandle.unique {fd fd' : Int} (next : NextHandle files fd) (next' : NextHandle files fd') : fd = fd' := by
  rcases lt_trichotomy fd fd' with before | same | behind
  · exact absurd next.free (next'.least fd next.positive before)
  · exact same
  · exact absurd next'.free (next.least fd' next'.positive behind)

theorem SeeksTo.unique {pos whence : Nat} {offset target target' : Int} (seeks : SeeksTo pos offset whence target)
    (seeks' : SeeksTo pos offset whence target') : target = target' := by
  cases seeks with
  | set =>
    cases seeks'
    rfl
  | cur =>
    cases seeks'
    rfl

/-- **What is seen of a call** depends on the open files and the paths alone. -/
theorem FileStep.seen (definite : catalogue.Definite) (step : FileStep catalogue files (op, answer) after)
    (step' : FileStep catalogue files (op, answer') after') : answer.seen = answer'.seen ∧ after = after' := by
  cases step with
  | opens mode file next =>
    cases step' with
    | opens mode' file' next' =>
      obtain rfl := definite.once file file'
      obtain rfl := next.unique next'
      exact ⟨rfl, rfl⟩
    | opensNothing reason =>
      rcases reason with mode' | nothing
      · exact absurd mode mode'
      · exact absurd nothing (definite.apart file)
    | refuses own => cases own
  | opensNothing reason =>
    cases step' with
    | opens mode' file' =>
      rcases reason with mode | nothing
      · exact absurd mode' mode
      · exact absurd nothing (definite.apart file')
    | opensNothing => exact ⟨rfl, rfl⟩
    | refuses own => cases own
  | seeks found asks low high =>
    cases step' with
    | seeks found' asks' =>
      cases found.symm.trans found'
      obtain rfl := asks.unique asks'
      exact ⟨rfl, rfl⟩
    | seeksNowhere found' nowhere =>
      cases found.symm.trans found'
      exact absurd ⟨low, high⟩ (nowhere _ asks)
    | refuses own none =>
      cases own
      cases found.symm.trans none
  | seeksNowhere found nowhere =>
    cases step' with
    | seeks found' asks' low' high' =>
      cases found.symm.trans found'
      exact absurd ⟨low', high'⟩ (nowhere _ asks')
    | seeksNowhere => exact ⟨rfl, rfl⟩
    | refuses own none =>
      cases own
      cases found.symm.trans none
  | @reads _ _ _ _ _ _ read found some_size some_nmemb succeeds written =>
    cases step' with
    | @reads _ _ _ _ _ _ read' found' _ _ succeeds' written' =>
      cases found.symm.trans found'
      rw [Answer.seen, Answer.seen, succeeds, succeeds', written, written']
      exact ⟨rfl, rfl⟩
    | readsNothing empty => omega
    | refuses own none =>
      cases own
      cases found.symm.trans none
  | readsNothing empty =>
    cases step' with
    | reads _ some_size some_nmemb => omega
    | readsNothing => exact ⟨rfl, rfl⟩
    | refuses _ _ some => exact absurd empty some
  | stats found =>
    cases step' with
    | stats found' =>
      cases found.symm.trans found'
      exact ⟨rfl, rfl⟩
    | refuses own none =>
      cases own
      cases found.symm.trans none
  | closes found =>
    cases step' with
    | closes => exact ⟨rfl, rfl⟩
    | refuses own none =>
      cases own
      cases found.symm.trans none
  | refuses own none some =>
    cases step' with
    | opens => cases own
    | opensNothing => exact ⟨rfl, rfl⟩
    | seeks found =>
      cases own
      cases found.symm.trans none
    | seeksNowhere found =>
      cases own
      cases found.symm.trans none
    | reads found =>
      cases own
      cases found.symm.trans none
    | readsNothing empty => exact absurd empty some
    | stats found =>
      cases own
      cases found.symm.trans none
    | closes found =>
      cases own
      cases found.symm.trans none
    | refuses => exact ⟨rfl, rfl⟩

end Seen

/-! ### The paths of a tree -/

section Paths

variable {drive : Drive} {fatPrivate : FatPrivate} {header : FatHeader} {entry entry' target target' : FatDirectoryItem}
  {tree sub sub' : DirTree} {name : Text} {rest : List Text}

/-- A chain has one length. -/
theorem FileChain.length_unique {start : Int} {length length' : Nat} (chain : FileChain drive fatPrivate start length)
    (chain' : FileChain drive fatPrivate start length') : length = length' := by
  have ends {one other : Nat} (first : FileChain drive fatPrivate start one)
      (second : FileChain drive fatPrivate start other) : ¬ one < other := fun shorter => by
    have data := (second.data one shorter).readable
    rw [first.end_unreadable] at data
    exact Bool.false_ne_true data
  exact Nat.le_antisymm (Nat.not_lt.mp (ends chain' chain)) (Nat.not_lt.mp (ends chain chain'))

/-- One entry has the name. -/
theorem NamesOnce.unique {entries : List FatDirectoryItem} (once : NamesOnce entries) (member : entry ∈ entries)
    (named : entry.Named name.chars) (member' : entry' ∈ entries) (named' : entry'.Named name.chars) :
    entry = entry' :=
  Option.some.inj ((once.slotNamed member named).symm.trans (once.slotNamed member' named'))

theorem LaidOut.within {entries : List FatDirectoryItem} {child : FatDirectoryItem → DirTree}
    (laid : LaidOut drive header (.directory entries child)) (member : entry ∈ entries)
    (named : entry.Named name.chars) (plain : ¬ Dotted name.chars) (directory : entry.IsDirectory) :
    LaidOut drive header (child entry) := by
  cases laid with
  | directory _ _ _ below => exact below entry member directory fun dotted => plain (SameName.dotted named dotted)

/-- **A path leads to one entry.** -/
theorem Leads.unique (leads : Leads tree name rest target sub) :
    LaidOut drive header tree → ∀ {target' sub'}, Leads tree name rest target' sub' → target = target' := by
  induction leads with
  | last member named =>
    intro laid target' sub' leads'
    cases leads' with
    | last member' named' => exact laid.once.unique member named member' named'
  | next member named plain directory _ ih =>
    intro laid target' sub' leads'
    cases leads' with
    | next member' named' _ _ leads' =>
      obtain rfl := laid.once.unique member named member' named'
      exact ih (laid.within member named plain directory) leads'

/-- A path that leads to an entry does not lead nowhere. -/
theorem Leads.not_lacks (leads : Leads tree name rest target sub) :
    LaidOut drive header tree → ¬ Lacks tree name rest := by
  induction leads with
  | last member named =>
    intro laid lacks
    cases lacks with
    | missing missing => exact missing _ member named
  | next member named plain directory _ ih =>
    intro laid lacks
    cases lacks with
    | file member' named' file =>
      obtain rfl := laid.once.unique member named member' named'
      exact file directory
    | next member' named' _ _ lacks =>
      obtain rfl := laid.once.unique member named member' named'
      exact ih (laid.within member named plain directory) lacks

theorem Leads.first (leads : Leads tree name rest target sub) : ∃ entry ∈ tree.entries, entry.Named name.chars := by
  cases leads with
  | last member named => exact ⟨_, member, named⟩
  | next member named => exact ⟨_, member, named⟩

theorem volumeCatalogue_definite (laid : LaidOut drive header tree) :
    (volumeCatalogue drive fatPrivate tree).Definite where
  once file file' := by
    obtain ⟨p, name, rest, entry, sub, length, start, parts, leads, -, stored, rfl⟩ := file
    obtain ⟨p', name', rest', entry', sub', length', start', parts', leads', -, stored', rfl⟩ := file'
    cases start.symm.trans start'
    cases parts.symm.trans parts'
    obtain rfl := leads.unique laid leads'
    obtain rfl := stored.chain.length_unique stored'.chain
    rfl
  apart file nothing := by
    obtain ⟨p, name, rest, entry, sub, length, start, parts, leads, -⟩ := file
    rcases nothing p name rest start parts with lacks | missing
    · exact leads.not_lacks laid lacks
    · obtain ⟨first, member, named⟩ := leads.first
      exact missing first member named

end Paths

/-! ### Trees alike -/

/-- The bytes of the file of an entry. -/
def StoresBytes (drive : Drive) (fatPrivate : FatPrivate) (entry : FatDirectoryItem) (contents : List UInt8) : Prop :=
  ∃ length, StoredFile drive fatPrivate entry length ∧ contents = storedBytes drive fatPrivate entry length

section Alike

variable (drive drive' : Drive) (fatPrivate fatPrivate' : FatPrivate)

/-- Both are directories, or files with the same bytes. -/
structure SameKind (entry entry' : FatDirectoryItem) : Prop where
  directory : entry.IsDirectory ↔ entry'.IsDirectory
  bytes : ¬ entry.IsDirectory → ∀ contents,
    StoresBytes drive fatPrivate entry contents ↔ StoresBytes drive' fatPrivate' entry' contents

/-- **The same names, and the same behind them.** -/
inductive Alike : DirTree → DirTree → Prop
  | directory {entries entries' : List FatDirectoryItem} {child child' : FatDirectoryItem → DirTree} :
      (∀ entry ∈ entries, ∃ entry' ∈ entries', entry.Named (fat16GetFullRelativeFilename entry')) →
      (∀ entry' ∈ entries', ∃ entry ∈ entries, entry.Named (fat16GetFullRelativeFilename entry')) →
      (∀ entry ∈ entries, ∀ entry' ∈ entries', entry.Named (fat16GetFullRelativeFilename entry') →
        SameKind drive drive' fatPrivate fatPrivate' entry entry') →
      (∀ entry ∈ entries, ∀ entry' ∈ entries', entry.Named (fat16GetFullRelativeFilename entry') →
        entry.IsDirectory → ¬ Dotted (fat16GetFullRelativeFilename entry) → Alike (child entry) (child' entry')) →
      Alike (.directory entries child) (.directory entries' child')

end Alike

section Transfer

variable {drive drive' : Drive} {fatPrivate fatPrivate' : FatPrivate} {tree tree' sub : DirTree} {name : Text}
  {rest : List Text} {target : FatDirectoryItem}

theorem Alike.symm (alike : Alike drive drive' fatPrivate fatPrivate' tree tree') :
    Alike drive' drive fatPrivate' fatPrivate tree' tree := by
  induction alike with
  | directory there back kind _ ih =>
    refine .directory (fun entry member => ?_) (fun entry member => ?_) (fun entry member entry' member' named => ?_)
      fun entry member entry' member' named directory plain => ?_
    · obtain ⟨entry', member', named⟩ := back entry member
      exact ⟨entry', member', SameName.symm named⟩
    · obtain ⟨entry', member', named⟩ := there entry member
      exact ⟨entry', member', SameName.symm named⟩
    · obtain ⟨directory, bytes⟩ := kind entry' member' entry member (SameName.symm named)
      exact ⟨directory.symm, fun file contents => (bytes (fun other => file (directory.mp other)) contents).symm⟩
    · have same := SameName.symm named
      exact ih entry' member' entry member same ((kind entry' member' entry member same).directory.mpr directory)
        fun dotted => plain (SameName.dotted same dotted)

/-- The entry with a name has one like it. -/
theorem Alike.named (alike : Alike drive drive' fatPrivate fatPrivate' tree tree') {entry : FatDirectoryItem}
    (member : entry ∈ tree.entries) (named : entry.Named name.chars) :
    ∃ entry' ∈ tree'.entries, entry'.Named name.chars := by
  cases alike with
  | directory there =>
    obtain ⟨entry', member', same⟩ := there entry member
    exact ⟨entry', member', SameName.trans (SameName.symm same) named⟩

/-- **A path that leads to an entry** leads to one of its kind. -/
theorem Alike.leads (leads : Leads tree name rest target sub) :
    ∀ {tree'}, Alike drive drive' fatPrivate fatPrivate' tree tree' →
      ∃ target' sub', Leads tree' name rest target' sub' ∧
        SameKind drive drive' fatPrivate fatPrivate' target target' := by
  induction leads with
  | last member named plain =>
    intro tree' alike
    cases alike with
    | directory there _ kind =>
      obtain ⟨entry', member', same⟩ := there _ member
      exact ⟨entry', _, .last member' (SameName.trans (SameName.symm same) named) plain, kind _ member _ member' same⟩
  | next member named plain directory _ ih =>
    intro tree' alike
    cases alike with
    | directory there _ kind below =>
      obtain ⟨entry', member', same⟩ := there _ member
      obtain ⟨target', sub', leads', like⟩ := ih (below _ member _ member' same directory fun dotted =>
        plain (SameName.dotted named dotted))
      exact ⟨target', sub', .next member' (SameName.trans (SameName.symm same) named) plain
        ((kind _ member _ member' same).directory.mp directory) leads', like⟩

/-- **A path that leads nowhere** leads nowhere. -/
theorem Alike.lacks (lacks : Lacks tree name rest) :
    ∀ {tree'}, Alike drive drive' fatPrivate fatPrivate' tree tree' → Lacks tree' name rest := by
  induction lacks with
  | missing missing =>
    intro tree' alike
    cases alike with
    | directory _ back =>
      refine .missing fun entry' member' named => ?_
      obtain ⟨entry, member, same⟩ := back entry' member'
      exact missing entry member (SameName.trans same named)
  | file member named file =>
    intro tree' alike
    cases alike with
    | directory there _ kind =>
      obtain ⟨entry', member', same⟩ := there _ member
      exact .file member' (SameName.trans (SameName.symm same) named) fun directory =>
        file ((kind _ member _ member' same).directory.mpr directory)
  | next member named plain directory _ ih =>
    intro tree' alike
    cases alike with
    | directory there _ kind below =>
      obtain ⟨entry', member', same⟩ := there _ member
      exact .next member' (SameName.trans (SameName.symm same) named) plain
        ((kind _ member _ member' same).directory.mp directory)
        (ih (below _ member _ member' same directory fun dotted => plain (SameName.dotted named dotted)))

/-- The paths of one are paths of the other. -/
theorem Alike.catalogued (alike : Alike drive drive' fatPrivate fatPrivate' tree tree') {filename : CString} :
    (∀ contents, (volumeCatalogue drive fatPrivate tree).file filename contents →
      (volumeCatalogue drive' fatPrivate' tree').file filename contents) ∧
    ((volumeCatalogue drive fatPrivate tree).nothing filename →
      (volumeCatalogue drive' fatPrivate' tree').nothing filename) := by
  constructor
  · rintro contents ⟨p, name, rest, entry, sub, length, start, parts, leads, file, stored, same⟩
    obtain ⟨entry', sub', leads', kind⟩ := alike.leads leads
    obtain ⟨length', stored', same'⟩ := (kind.bytes file contents).mp ⟨length, stored, same⟩
    exact ⟨p, name, rest, entry', sub', length', start, parts, leads', fun directory =>
      file (kind.directory.mpr directory), stored', same'⟩
  · intro nothing p name rest start parts
    refine (nothing p name rest start parts).imp alike.lacks fun missing entry' member' named => ?_
    obtain ⟨entry, member, named'⟩ := alike.symm.named member' named
    exact missing entry member named'

/-- **Volumes alike have the same paths.** -/
theorem Alike.catalogue (alike : Alike drive drive' fatPrivate fatPrivate' tree tree') :
    volumeCatalogue drive fatPrivate tree = volumeCatalogue drive' fatPrivate' tree' := by
  rw [Catalogue.mk.injEq]
  constructor
  · funext filename contents
    exact propext ⟨alike.catalogued.1 contents, alike.symm.catalogued.1 contents⟩
  · funext filename
    exact propext ⟨alike.catalogued.2, alike.symm.catalogued.2⟩

end Transfer

/-! ### The calls -/

/-- **Volumes alike answer alike.** Two volumes with trees of the same names, in any order and case, and the same
bytes behind them, mounted by any two kernels with memory for every record: both answer any sequence of sensible
calls without a fault, and any run of these calls on one and any on the other, wherever each call finds the
streams and wherever the clusters lie, show the same answers, and have the same handles open at their ends. -/
theorem volumes_alike {machine machine' : Machine} {start start' : Kernel} {fatPrivate fatPrivate' : FatPrivate}
    {tree tree' : DirTree} (mounted : TreeMounted machine start fatPrivate tree)
    (mounted' : TreeMounted machine' start' fatPrivate' tree')
    (alike : Alike machine.drive machine'.drive fatPrivate fatPrivate' tree tree') {ops : List FileOp}
    (sensible : AllAllowed (Sensible (volumeCatalogue machine.drive fatPrivate tree))
      (FileStep (volumeCatalogue machine.drive fatPrivate tree)) (fun _ => none) ops) :
    (∃ events kernel, events.map Prod.fst = ops ∧ Run (Performs machine) start events kernel) ∧
    (∃ events kernel, events.map Prod.fst = ops ∧ Run (Performs machine') start' events kernel) ∧
    ∀ events kernel events' kernel', Run (Performs machine) start events kernel →
      Run (Performs machine') start' events' kernel' → events.map Prod.fst = ops → events'.map Prod.fst = ops →
      (events.map fun event => event.2.seen) = (events'.map fun event => event.2.seen) ∧
        ∀ fd, descriptorOf kernel fd ≠ 0 ↔ descriptorOf kernel' fd ≠ 0 := by
  have sensible' : AllAllowed (Sensible (volumeCatalogue machine'.drive fatPrivate' tree'))
      (FileStep (volumeCatalogue machine'.drive fatPrivate' tree')) (fun _ => none) ops :=
    alike.catalogue ▸ sensible
  refine ⟨mounted.answered sensible, mounted'.answered sensible', fun events kernel events' kernel' run run' asked
    asked' => ?_⟩
  obtain ⟨files, follows, opened⟩ := mounted.refines sensible run asked
  obtain ⟨files', follows', opened'⟩ := mounted'.refines sensible' run' asked'
  rw [← alike.catalogue] at follows'
  have definite := @volumeCatalogue_definite machine.drive fatPrivate fatPrivate.header tree mounted.laid
  obtain ⟨seen, rfl⟩ := Run.observed (fun step step' => step.seen definite step') follows follows'
    (asked.trans asked'.symm)
  exact ⟨seen, fun fd => (opened fd).trans (opened' fd).symm⟩

/-! ### A directory turned round -/

section Small

/-- The files of the two clusters and of none in the other order and in lower case. -/
def turnedEntries : List FatDirectoryItem := [namedEntry 97 0 0, noteEntry 110 5]

/-- The chain of the first goes from cluster 5 back to cluster 3. -/
def turnedMachine : Machine := smallMachine (noteDrive turnedEntries 5 3)

def turnedTree : DirTree := .directory turnedEntries fun _ => .file

theorem turned_header : FatHeader.parse (window turnedMachine.drive.image 0 62) = smallHeader := by
  decide

theorem turned_root : RootAt turnedMachine.drive smallHeader turnedEntries where
  listed := by decide
  within := by decide
  below := by decide

theorem turned_laid : LaidOut turnedMachine.drive smallHeader turnedTree :=
  laidOut_files ⟨by decide, by decide⟩ (by decide)

theorem turned_mount : ∃ kernel, fat16Resolve turnedMachine bootKernel = .ok (0, kernel) ∧
    kernel.heap.lookup 0 = none :=
  @fat16Resolve_mounts turnedMachine bootKernel turnedEntries (fun _ _ _ => rfl) rfl rfl (turned_header ▸ rfl)
    (turned_header ▸ by decide) (turned_header ▸ turned_root)

theorem turned_stored : StoredFile turnedMachine.drive smallPrivate (noteEntry 110 5) 2 :=
  storedFile_two ⟨by decide, by decide, by decide⟩ (by decide : _ = (5 : Int))
    (by decide : _ = (3 : Int)) (by decide) (by decide) (by decide)

/-- The bytes of a file are the same however the volume is mounted. -/
theorem storesBytes_iff {drive : Drive} {fatPrivate other : FatPrivate} {entry : FatDirectoryItem} {length : Nat}
    (file : StoredFile drive other entry length) (mounted : Mounted drive fatPrivate) (contents : List UInt8) :
    StoresBytes drive fatPrivate entry contents ↔ contents = storedBytes drive other entry length := by
  have header : fatPrivate.header = other.header := mounted.header.trans file.mounted.header.symm
  have same : storedBytes drive fatPrivate entry length = storedBytes drive other entry length := by
    unfold storedBytes entryContents fileContents fatClusters
    rw [fatRoute_congr drive fatPrivate header, header]
  rw [← same]
  constructor
  · rintro ⟨length', file', rfl⟩
    rw [file'.chain.length_unique (file.remount mounted).chain]
  · rintro rfl
    exact ⟨length, file.remount mounted, rfl⟩

/-- An empty file takes no cluster. -/
theorem emptyFile_bytes {drive : Drive} {fatPrivate : FatPrivate} {entry : FatDirectoryItem}
    (mounted : Mounted drive fatPrivate) (cluster : fat16GetFirstCluster entry = 0)
    (size : entry.filesize.toNat = 0) (contents : List UInt8) :
    StoresBytes drive fatPrivate entry contents ↔ contents = [] := by
  have stored : StoredFile drive fatPrivate entry 0 :=
    ⟨mounted, ⟨fun _ none => absurd none (Nat.not_lt_zero _), .inr ⟨rfl, cluster⟩⟩,
      fun _ none => absurd none (Nat.not_lt_zero _), size.trans_le (Nat.zero_le _)⟩
  rw [storesBytes_iff stored mounted, storedBytes, size, List.take_zero]

theorem turned_alike {fatPrivate fatPrivate' : FatPrivate} (mounted : Mounted noteMachine.drive fatPrivate)
    (mounted' : Mounted turnedMachine.drive fatPrivate') :
    Alike noteMachine.drive turnedMachine.drive fatPrivate fatPrivate' noteTree turnedTree := by
  have files : ∀ entry ∈ noteEntries, ¬ entry.IsDirectory := by decide
  have files' : ∀ entry ∈ turnedEntries, ¬ entry.IsDirectory := by decide
  have pairs : ∀ entry ∈ noteEntries, ∀ entry' ∈ turnedEntries,
      entry.Named (fat16GetFullRelativeFilename entry') →
        entry = noteEntry 78 2 ∧ entry' = noteEntry 110 5 ∨
          entry = namedEntry 65 0 0 ∧ entry' = namedEntry 97 0 0 := by
    decide
  have bytes : storedBytes noteMachine.drive smallPrivate (noteEntry 78 2) 2 =
      storedBytes turnedMachine.drive smallPrivate (noteEntry 110 5) 2 := by
    decide +kernel
  refine .directory (by decide) (by decide) (fun entry member entry' member' named => ?_)
    fun entry member _ _ _ directory => absurd directory (files entry member)
  refine ⟨iff_of_false (files entry member) (files' entry' member'), fun _ contents => ?_⟩
  rcases pairs entry member entry' member' named with ⟨rfl, rfl⟩ | ⟨rfl, rfl⟩
  · rw [storesBytes_iff note_stored mounted, storesBytes_iff turned_stored mounted', bytes]
  · rw [emptyFile_bytes mounted (by decide) (by decide),
      emptyFile_bytes mounted' (by decide) (by decide)]

/-- `N` opened, read and closed on both. -/
theorem volumes_alike_turned : ∃ start start' events kernel events' kernel',
    fat16Resolve noteMachine bootKernel = .ok (0, start) ∧
    fat16Resolve turnedMachine bootKernel = .ok (0, start') ∧
    Run (Performs noteMachine) start events kernel ∧ Run (Performs turnedMachine) start' events' kernel' ∧
    events.map Prod.fst = noteOps ∧
    (events.map fun event => event.2.seen) = (events'.map fun event => event.2.seen) := by
  obtain ⟨start, mount, -⟩ := note_mount
  obtain ⟨start', mount', -⟩ := turned_mount
  obtain ⟨fatPrivate, -, volume, mounted, -⟩ := fat16Resolve_mounted mount
  obtain ⟨fatPrivate', -, volume', mounted', -⟩ := fat16Resolve_mounted mount'
  have header : fatPrivate.header = smallHeader := mounted.header.trans note_header
  have header' : fatPrivate'.header = smallHeader := mounted'.header.trans turned_header
  obtain ⟨⟨events, kernel, asked, run⟩, ⟨events', kernel', asked', run'⟩, same⟩ :=
    @volumes_alike noteMachine turnedMachine start start' fatPrivate fatPrivate' noteTree turnedTree
      ⟨fun _ _ _ => rfl, ⟨bootKernel, bootKernel_quiet, mount⟩, volume, header ▸ note_root, header ▸ note_laid⟩
      ⟨fun _ _ _ => rfl, ⟨bootKernel, bootKernel_quiet, mount'⟩, volume', header' ▸ turned_root,
        header' ▸ turned_laid⟩
      (turned_alike mounted mounted') _ (note_sensible mounted)
  exact ⟨start, start', events, kernel, events', kernel', mount, mount', run, run', asked,
    (same events kernel events' kernel' run run' asked asked').1⟩

end Small

end KernelPlay
