/-
**The grammar of a path, and what the parser reads.**

`pparserReads` — the positions of the string the parser looks at, in order; nothing else of the memory
matters to it (`pparserParsePathRoot_congr`). `components_splitOn` — inside the string the components
are the pieces between the slashes. `path_grammar_iff` — the parser accepts exactly `InGrammar` and
stays inside the string, except where the characters behind the digit compare below `":/"`
(`SlipsThrough`). `parse_loses_nothing` — joined again, the parts are the path.
-/

import KernelPlay.File.Parse

namespace KernelPlay

open KernelPlay.Library

/-! ### Two characters -/

/-- A `char` is signed. -/
def signedChar (c : UInt8) : Int := Int.bmod c.toNat 256

theorem signedChar_eq (c : UInt8) :
    signedChar c = if c.toNat < 128 then (c.toNat : Int) else (c.toNat : Int) - 256 := by
  have below : c.toNat < 256 := c.toNat_lt
  unfold signedChar
  rw [Int.bmod_def, Int.emod_eq_of_lt (by omega) (by omega)]
  by_cases low : c.toNat < 128
  · rw [if_pos low, if_pos (by omega)]
  · rw [if_neg low, if_neg (by omega)]
    rfl

/-- Characters below 128 are told apart from all others. -/
theorem signedChar_eq_iff {c value : UInt8} (small : value.toNat < 128) :
    signedChar c = value.toNat ↔ c = value := by
  have below : c.toNat < 256 := c.toNat_lt
  rw [signedChar_eq, ← UInt8.toNat_inj]
  split_ifs <;> omega

/-- The two characters compare above `":/"`. -/
def AboveStart (first second : UInt8) : Prop :=
  58 < signedChar first ∨ signedChar first = 58 ∧ 47 < signedChar second

instance (first second : UInt8) : Decidable (AboveStart first second) :=
  inferInstanceAs (Decidable (_ ∨ _))

theorem signedChar_colon {c : UInt8} : signedChar c = 58 ↔ c = 58 :=
  @signedChar_eq_iff c 58 (by decide)

theorem signedChar_slash {c : UInt8} : signedChar c = 47 ↔ c = 47 :=
  @signedChar_eq_iff c 47 (by decide)

/-- The second character counts only behind a colon. -/
theorem aboveStart_of_ne {first second other : UInt8} (apart : first ≠ 58) :
    AboveStart first second ↔ AboveStart first other := by
  have differs := mt signedChar_colon.mp apart
  unfold AboveStart
  simp only [differs, false_and]

theorem validateStartOfPath_eq (pathStr : CString) (p : Nat) :
    validateStartOfPath pathStr p =
      if AboveStart (pathStr.charAt p) (pathStr.charAt (p + 1)) then .error (-einvarg) else .ok (p + 2) := by
  have compares (first second : Int) :
      (if 58 ≠ first then if 58 < first then (-1 : Int) else 1
        else if 47 ≠ second then if 47 < second then -1 else 1 else 0) < 0 ↔
        58 < first ∨ first = 58 ∧ 47 < second := by
    split_ifs <;> omega
  have result := compares (signedChar (pathStr.charAt p)) (signedChar (pathStr.charAt (p + 1)))
  have byte (c : UInt8) : Int.bmod c.toNat 256 = signedChar c := rfl
  unfold validateStartOfPath
  simp only [Nat.add_zero, byte]
  by_cases above : AboveStart (pathStr.charAt p) (pathStr.charAt (p + 1))
  · rw [if_pos above, if_pos (result.mpr above)]
  · rw [if_neg above, if_neg fun negative => above (result.mp negative)]

/-! ### The positions the parser reads -/

section Reads

variable (pathStr : CString)

/-- The loop that counts the characters of a name. -/
def nameLenReads : Nat → Nat → List Nat
  | 0, _ => []
  | turns + 1, p =>
    p :: if pathStr.charAt p ≠ 47 ∧ pathStr.charAt p ≠ 0 then nameLenReads turns (p + 1) else []

/-- The parts: the loop, the copy of the name, and the character behind it. -/
def pathPartsReads : Nat → Nat → List Nat
  | 0, _ => []
  | turns + 1, p =>
    nameLenReads pathStr memoryTurns p ++
      match pparserNameLen pathStr memoryTurns p with
      | none => []
      | some nameLen =>
        List.range' p (nameLen + 1) ++
          if pathStr.charAt (p + nameLen) = 0 then [] else pathPartsReads turns (p + nameLen + 1)

/-- `memcmp` stops at the first difference. -/
def startReads (p : Nat) : List Nat := if pathStr.charAt p ≠ 58 then [p] else [p, p + 1]

/-- `strlen` reads up to the terminator. -/
def pparserReads : List Nat :=
  List.range (pathStr.strlen + 1) ++
    if int32 pathStr.strlen > pparserMaxPath then []
    else
      0 :: match pparserParseDriveNo pathStr 0 with
        | .error _ => []
        | .ok (_, p) =>
          startReads pathStr p ++
            match validateStartOfPath pathStr p with
            | .error _ => []
            | .ok p => pathPartsReads pathStr memoryTurns p

end Reads

section Congr

variable {pathStr other : CString}

theorem nameLen_congr :
    ∀ (turns p : Nat),
      (∀ position ∈ nameLenReads pathStr turns p, other.charAt position = pathStr.charAt position) →
      pparserNameLen other turns p = pparserNameLen pathStr turns p := by
  intro turns
  induction turns with
  | zero => exact fun _ _ => rfl
  | succ turns ih =>
    intro p agree
    rw [nameLenReads] at agree
    rw [pparserNameLen, pparserNameLen, agree p List.mem_cons_self]
    split_ifs with goes
    · rw [if_pos goes] at agree
      rw [ih (p + 1) fun position member => agree position (List.mem_cons_of_mem _ member)]
    · rfl

theorem parts_congr (machine : Machine) :
    ∀ (turns : Nat) (heap : Kheap) (p : Nat) (pathPart : Ptr),
      (∀ position ∈ pathPartsReads pathStr turns p, other.charAt position = pathStr.charAt position) →
      pparserParsePathParts machine other turns heap p pathPart =
        pparserParsePathParts machine pathStr turns heap p pathPart := by
  intro turns
  induction turns with
  | zero => exact fun _ _ _ _ => rfl
  | succ turns ih =>
    intro heap p pathPart agree
    rw [pathPartsReads] at agree
    have len : pparserNameLen other memoryTurns p = pparserNameLen pathStr memoryTurns p :=
      nameLen_congr _ _ fun position member => agree position (List.mem_append_left _ member)
    rw [pparserParsePathParts, pparserParsePathParts, len]
    cases found : pparserNameLen pathStr memoryTurns p with
    | none => rfl
    | some nameLen =>
      rw [found] at agree
      dsimp only at agree ⊢
      have copied {position : Nat} (first : p ≤ position) (last : position ≤ p + nameLen) :
          other.charAt position = pathStr.charAt position :=
        agree position (List.mem_append_right _ (List.mem_append_left _
          (List.mem_range'_1.mpr ⟨first, by omega⟩)))
      have name : window other.charAt p nameLen = window pathStr.charAt p nameLen :=
        window_congr fun index inside => copied (Nat.le_add_right p index) (by omega)
      rw [name, copied (Nat.le_add_right p nameLen) le_rfl]
      by_cases last : pathStr.charAt (p + nameLen) = 0
      · simp only [if_pos last]
      · rw [if_neg last] at agree
        simp only [if_neg last]
        have rest (heap : Kheap) (next : Ptr) := ih heap (p + nameLen + 1) next fun position member =>
          agree position (List.mem_append_right _ (List.mem_append_right _ member))
        simp only [rest]

/-- **Nothing but the characters read matters to the parser.** -/
theorem pparserParsePathRoot_congr (machine : Machine) (heap : Kheap) (pathRoot : Ptr)
    (text : other.text = pathStr.text)
    (agree : ∀ position ∈ pparserReads pathStr, other.charAt position = pathStr.charAt position) :
    pparserParsePathRoot machine other heap pathRoot = pparserParsePathRoot machine pathStr heap pathRoot := by
  have length : other.strlen = pathStr.strlen := congrArg (fun text : Text => text.chars.length) text
  unfold pparserReads at agree
  unfold pparserParsePathRoot
  rw [length]
  by_cases long : int32 pathStr.strlen > pparserMaxPath
  · rw [if_pos long, if_pos long]
  rw [if_neg long, if_neg long]
  rw [if_neg long] at agree
  have behind := fun position member => agree position (List.mem_append_right _ member)
  have drive : pparserParseDriveNo other 0 = pparserParseDriveNo pathStr 0 := by
    unfold pparserParseDriveNo
    rw [behind 0 List.mem_cons_self]
  rw [drive]
  rcases found : pparserParseDriveNo pathStr 0 with r | ⟨driveNo, p⟩
  · rfl
  rw [found] at behind
  dsimp only at behind ⊢
  have start : validateStartOfPath other p = validateStartOfPath pathStr p := by
    have first : other.charAt p = pathStr.charAt p := by
      refine behind p (List.mem_cons_of_mem _ (List.mem_append_left _ ?_))
      unfold startReads
      split_ifs <;> simp
    have second (colon : pathStr.charAt p = 58) : other.charAt (p + 1) = pathStr.charAt (p + 1) := by
      refine behind (p + 1) (List.mem_cons_of_mem _ (List.mem_append_left _ ?_))
      unfold startReads
      rw [if_neg (not_not.mpr colon)]
      simp
    rw [validateStartOfPath_eq, validateStartOfPath_eq, first]
    by_cases colon : pathStr.charAt p = 58
    · rw [second colon]
    · exact if_congr (aboveStart_of_ne colon) rfl rfl
  rw [start]
  rcases accepted : validateStartOfPath pathStr p with r | p
  · rfl
  rw [accepted] at behind
  dsimp only at behind ⊢
  have parts (heap : Kheap) (pathPart : Ptr) := parts_congr machine memoryTurns heap p pathPart
    fun position member => behind position (List.mem_cons_of_mem _ (List.mem_append_right _ member))
  simp only [parts]

end Congr

/-! ### Inside the string -/

section Inside

variable {pathStr : CString} {index : Nat}

namespace CString

theorem charAt_inside (inside : index < pathStr.strlen) :
    pathStr.charAt index = pathStr.text.chars.getD index 0 :=
  if_pos inside.le

theorem charAt_strlen : pathStr.charAt pathStr.strlen = 0 := by
  unfold charAt
  rw [if_pos le_rfl]
  exact List.getD_eq_default _ _ le_rfl

/-- The terminator is the only zero of the string. -/
theorem charAt_ne_zero (inside : index < pathStr.strlen) : pathStr.charAt index ≠ 0 := by
  rw [charAt_inside inside, List.getD_eq_getElem _ _ inside]
  exact fun zero => pathStr.text.noNul (zero ▸ List.getElem_mem _)

theorem lt_of_charAt_ne_zero (below : index ≤ pathStr.strlen) (nonzero : pathStr.charAt index ≠ 0) :
    index < pathStr.strlen := by
  refine lt_of_le_of_ne below ?_
  rintro rfl
  exact nonzero charAt_strlen

theorem drop_chars (inside : index < pathStr.strlen) :
    pathStr.text.chars.drop index = pathStr.charAt index :: pathStr.text.chars.drop (index + 1) := by
  have below : index < pathStr.text.chars.length := inside
  rw [charAt_inside inside, List.getD_eq_getElem _ _ below]
  exact List.drop_eq_getElem_cons below

theorem window_charAt {p count : Nat} (inside : p + count ≤ pathStr.strlen) :
    window pathStr.charAt p count = (pathStr.text.chars.drop p).take count := by
  have length : pathStr.text.chars.length = pathStr.strlen := rfl
  refine List.ext_getElem (by simp; omega) fun index below _ => ?_
  rw [window_length] at below
  rw [window_getElem, charAt_inside (by omega), List.getD_eq_getElem _ _ (by omega), List.getElem_take,
    List.getElem_drop]

end CString

theorem ofChars_chars {chars : List UInt8} (noNul : 0 ∉ chars) : (Text.ofChars chars).chars = chars := by
  refine List.takeWhile_eq_self_iff.mpr fun c member => decide_eq_true ?_
  rintro rfl
  exact noNul member

theorem partName_chars {p nameLen : Nat} (inside : p + nameLen ≤ pathStr.strlen) :
    (partName pathStr p nameLen).chars = (pathStr.text.chars.drop p).take nameLen := by
  unfold partName
  rw [CString.window_charAt inside]
  exact ofChars_chars fun zero => pathStr.text.noNul (List.mem_of_mem_drop (List.mem_of_mem_take zero))

/-- **The loop stops at a slash or at the terminator**, and has read nothing behind. -/
theorem nameLen_inside :
    ∀ (turns p : Nat), p ≤ pathStr.strlen → pathStr.strlen < turns + p →
      ∃ nameLen, pparserNameLen pathStr turns p = some nameLen ∧ p + nameLen ≤ pathStr.strlen ∧
        47 ∉ window pathStr.charAt p nameLen ∧
        (pathStr.charAt (p + nameLen) ≠ 0 → pathStr.charAt (p + nameLen) = 47) ∧
        ∀ position ∈ nameLenReads pathStr turns p, position ≤ pathStr.strlen := by
  intro turns
  induction turns with
  | zero => exact fun p below enough => absurd enough (by omega)
  | succ turns ih =>
    intro p below enough
    rw [pparserNameLen, nameLenReads]
    by_cases goes : pathStr.charAt p ≠ 47 ∧ pathStr.charAt p ≠ 0
    · have inside := CString.lt_of_charAt_ne_zero below goes.2
      obtain ⟨nameLen, len, fits, name, stop, reads⟩ := ih (p + 1) inside (by omega)
      rw [if_pos goes, if_pos goes, len]
      refine ⟨nameLen + 1, rfl, by omega, ?_, ?_, ?_⟩
      · rw [window_succ]
        simp [name, Ne.symm goes.1]
      · rwa [show p + (nameLen + 1) = p + 1 + nameLen by omega]
      · intro position member
        rcases List.mem_cons.mp member with rfl | member
        · exact below
        · exact reads position member
    · rw [if_neg goes, if_neg goes]
      refine ⟨0, rfl, below, by simp, fun nonzero => ?_, by simpa using below⟩
      by_contra other
      exact goes ⟨other, nonzero⟩

/-- **The components are the pieces between the slashes**, and the parser stays inside the string. -/
theorem components_splitOn :
    ∀ (turns p : Nat), p ≤ pathStr.strlen → pathStr.strlen < turns + p →
      ∃ names, components pathStr turns p = some names ∧
        names.map Text.chars = (pathStr.text.chars.drop p).splitOn 47 ∧
        ∀ position ∈ pathPartsReads pathStr turns p, position ≤ pathStr.strlen := by
  intro turns
  induction turns with
  | zero => exact fun p below enough => absurd enough (by omega)
  | succ turns ih =>
    intro p below enough
    have all : pathStr.strlen < memoryTurns + p := Nat.lt_add_right p pathStr.fits
    obtain ⟨nameLen, len, fits, name, stop, reads⟩ := nameLen_inside memoryTurns p below all
    have copied : ∀ position ∈ List.range' p (nameLen + 1), position ≤ pathStr.strlen := by
      intro position member
      have bounds := List.mem_range'_1.mp member
      omega
    rw [components, pathPartsReads, len]
    dsimp only
    rw [CString.window_charAt fits] at name
    have length : pathStr.text.chars.length = pathStr.strlen := rfl
    by_cases last : pathStr.charAt (p + nameLen) = 0
    · have ends : p + nameLen = pathStr.strlen := by
        by_contra inside
        exact CString.charAt_ne_zero (by omega) last
      rw [if_pos last, if_pos last]
      refine ⟨_, rfl, ?_, ?_⟩
      · have whole : (pathStr.text.chars.drop p).take nameLen = pathStr.text.chars.drop p :=
          List.take_of_length_le (by rw [List.length_drop]; omega)
        rw [whole] at name
        rw [List.map_singleton, partName_chars fits, whole, List.splitOn_eq_singleton name]
      · simpa only [List.append_nil, List.mem_append, or_imp, forall_and] using ⟨reads, copied⟩
    · have inside := CString.lt_of_charAt_ne_zero fits last
      obtain ⟨names, rest, pieces, within⟩ := ih (p + nameLen + 1) inside (by omega)
      rw [if_neg last, if_neg last, rest]
      refine ⟨_, rfl, ?_, ?_⟩
      · have cut : pathStr.text.chars.drop p =
            (pathStr.text.chars.drop p).take nameLen ++ 47 :: pathStr.text.chars.drop (p + nameLen + 1) := by
          rw [← stop last, ← CString.drop_chars inside, ← List.drop_drop, List.take_append_drop]
        have pieces' := List.splitOn_append_cons_self_of_not_mem name
          (pathStr.text.chars.drop (p + nameLen + 1))
        rw [← cut] at pieces'
        rw [pieces', List.map_cons, partName_chars fits, pieces]
      · simpa only [List.mem_append, or_imp, forall_and] using ⟨reads, copied, within⟩

end Inside

/-! ### Acceptance -/

/-- **The grammar**: a digit, `:/` and any characters, at most `PPARSER_MAX_PATH` in all. -/
def CString.InGrammar (pathStr : CString) : Prop :=
  pathStr.strlen ≤ pparserMaxPath ∧
    ∃ digit rest, isDigit digit = true ∧ pathStr.text.chars = digit :: 58 :: 47 :: rest

/-- The two characters compare below `":/"`. -/
def BelowStart (first second : UInt8) : Prop :=
  signedChar first < 58 ∨ signedChar first = 58 ∧ signedChar second < 47

/-- **What slips through**: behind the digit stand two characters that compare below `":/"`, or the
string is so long that its length is a negative `int`. -/
def CString.SlipsThrough (pathStr : CString) : Prop :=
  int32 pathStr.strlen ≤ pparserMaxPath ∧ isDigit (pathStr.charAt 0) = true ∧
    (BelowStart (pathStr.charAt 1) (pathStr.charAt 2) ∨
      pathStr.charAt 1 = 58 ∧ pathStr.charAt 2 = 47 ∧ pparserMaxPath < pathStr.strlen)

/-- The parser returns 0. -/
def Accepts (machine : Machine) (pathStr : CString) (heap : Kheap) (pathRoot : Ptr) : Prop :=
  ∃ heap', pparserParsePathRoot machine pathStr heap pathRoot = .ok (0, heap')

section Acceptance

variable {machine : Machine} {pathStr : CString} {heap : Kheap} {pathRoot : Ptr}

theorem not_aboveStart_iff {first second : UInt8} :
    ¬ AboveStart first second ↔ BelowStart first second ∨ first = 58 ∧ second = 47 := by
  rw [← signedChar_colon, ← signedChar_slash]
  unfold AboveStart BelowStart
  omega

theorem pathStart_iff {driveNo : Int} {p : Nat} :
    pathStart pathStr = some (driveNo, p) ↔
      int32 pathStr.strlen ≤ pparserMaxPath ∧ isDigit (pathStr.charAt 0) = true ∧
        ¬ AboveStart (pathStr.charAt 1) (pathStr.charAt 2) ∧
        driveNo = charToNumeric (pathStr.charAt 0) ∧ p = 3 := by
  unfold pathStart pparserParseDriveNo
  by_cases long : int32 pathStr.strlen > pparserMaxPath
  · rw [if_pos long]
    exact iff_of_false nofun fun accepted => absurd accepted.1 (not_le.mpr long)
  by_cases digit : isDigit (pathStr.charAt 0) = true
  swap
  · rw [if_neg long, if_pos digit]
    exact iff_of_false nofun fun accepted => digit accepted.2.1
  rw [if_neg long, if_neg (not_not.mpr digit)]
  dsimp only
  rw [validateStartOfPath_eq]
  by_cases above : AboveStart (pathStr.charAt 1) (pathStr.charAt 2)
  · rw [if_pos above]
    exact iff_of_false nofun fun accepted => accepted.2.2.1 above
  · rw [if_neg above]
    simp [not_lt.mp long, digit, above, eq_comm]

/-- With memory for every record, the parser accepts what starts well and ends. -/
theorem accepts_iff (ample : Ample machine.allocator) (root : pathRoot ≠ 0) :
    Accepts machine pathStr heap pathRoot ↔
      ∃ driveNo p, pathStart pathStr = some (driveNo, p) ∧ components pathStr memoryTurns p ≠ none := by
  have outcome := @parseRoot_outcome machine pathStr heap pathRoot
  unfold Accepts
  generalize pparserParsePathRoot machine pathStr heap pathRoot = result at outcome ⊢
  cases outcome with
  | rejected none negative =>
    refine iff_of_false ?_ ?_
    · rintro ⟨_, same⟩
      cases same
      exact absurd negative (lt_irrefl 0)
    · rintro ⟨_, _, some, -⟩
      rw [none] at some
      cases some
  | refused start missing =>
    exact absurd ⟨parts_granted ample _ _ _ (ample _ _ (by decide)), fun _ => root⟩ missing
  | @diverges driveNo p start granted endless =>
    refine iff_of_false nofun ?_
    rintro ⟨_, _, starts, ends⟩
    cases start.symm.trans starts
    exact ends endless
  | @parsed driveNo p part parts heap' start granted names nonnull calls spares =>
    exact iff_of_true ⟨_, rfl⟩ ⟨driveNo, p, start, by rw [names]; nofun⟩

theorem inGrammar_iff :
    pathStr.InGrammar ↔ pathStr.strlen ≤ pparserMaxPath ∧ isDigit (pathStr.charAt 0) = true ∧
      pathStr.charAt 1 = 58 ∧ pathStr.charAt 2 = 47 := by
  constructor
  · rintro ⟨short, digit, rest, numeral, text⟩
    have length : pathStr.strlen = rest.length + 3 := congrArg List.length text
    refine ⟨short, ?_, ?_, ?_⟩
    · rwa [CString.charAt_inside (by omega), text]
    · rw [CString.charAt_inside (by omega), text]
      rfl
    · rw [CString.charAt_inside (by omega), text]
      rfl
  · rintro ⟨short, digit, colon, slash⟩
    have nonempty : 0 < pathStr.strlen :=
      CString.lt_of_charAt_ne_zero (Nat.zero_le _) fun zero => absurd digit (by rw [zero]; decide)
    have second : 1 < pathStr.strlen :=
      CString.lt_of_charAt_ne_zero nonempty fun zero => absurd colon (by rw [zero]; decide)
    have third : 2 < pathStr.strlen :=
      CString.lt_of_charAt_ne_zero second fun zero => absurd slash (by rw [zero]; decide)
    refine ⟨short, pathStr.charAt 0, pathStr.text.chars.drop 3, digit, ?_⟩
    rw [← colon, ← slash, ← CString.drop_chars third, ← CString.drop_chars second,
      ← CString.drop_chars nonempty, List.drop_zero]

theorem startReads_inside {p position : Nat} (inside : p ≤ pathStr.strlen)
    (member : position ∈ startReads pathStr p) : position ≤ pathStr.strlen := by
  unfold startReads at member
  by_cases colon : pathStr.charAt p = 58
  · have behind : p < pathStr.strlen :=
      CString.lt_of_charAt_ne_zero inside fun zero => absurd colon (by rw [zero]; decide)
    rw [if_neg (not_not.mpr colon)] at member
    simp only [List.mem_cons, List.not_mem_nil, or_false] at member
    omega
  · rw [if_pos colon] at member
    rw [List.mem_singleton.mp member]
    exact inside

theorem first_nameLenReads {turns p : Nat} (some : turns ≠ 0) : p ∈ nameLenReads pathStr turns p := by
  obtain ⟨turns, rfl⟩ := Nat.exists_eq_succ_of_ne_zero some
  exact List.mem_cons_self

theorem first_pathPartsReads {turns p : Nat} (some : turns ≠ 0) : p ∈ pathPartsReads pathStr turns p := by
  obtain ⟨turns, rfl⟩ := Nat.exists_eq_succ_of_ne_zero some
  exact List.mem_append_left _ (first_nameLenReads (by decide))

/-- **The parser stays inside the string** exactly if the components of an accepted path begin there. -/
theorem reads_inside_iff :
    (∀ position ∈ pparserReads pathStr, position ≤ pathStr.strlen) ↔
      ∀ driveNo p, pathStart pathStr = some (driveNo, p) → p ≤ pathStr.strlen := by
  have strlen : ∀ position ∈ List.range (pathStr.strlen + 1), position ≤ pathStr.strlen :=
    fun position member => Nat.le_of_lt_succ (List.mem_range.mp member)
  unfold pparserReads pathStart
  by_cases long : int32 pathStr.strlen > pparserMaxPath
  · rw [if_pos long, if_pos long, List.append_nil]
    exact iff_of_true strlen nofun
  rw [if_neg long, if_neg long]
  unfold pparserParseDriveNo
  by_cases digit : isDigit (pathStr.charAt 0) = true
  swap
  · rw [if_pos digit]
    refine iff_of_true (fun position member => ?_) nofun
    rcases List.mem_append.mp member with member | member
    · exact strlen position member
    · rw [List.mem_singleton.mp member]
      exact Nat.zero_le _
  rw [if_neg (not_not.mpr digit)]
  dsimp only
  have nonempty : 0 < pathStr.strlen :=
    CString.lt_of_charAt_ne_zero (Nat.zero_le _) fun zero => absurd digit (by rw [zero]; decide)
  rcases start : validateStartOfPath pathStr (0 + 1) with r | p
  · refine iff_of_true (fun position member => ?_) nofun
    simp only [List.mem_append, List.mem_cons, List.append_nil] at member
    rcases member with member | rfl | member
    · exact strlen position member
    · exact Nat.zero_le _
    · exact startReads_inside nonempty member
  · constructor
    · intro within driveNo p' starts
      cases starts
      refine within _ (List.mem_append_right _ (List.mem_cons_of_mem _ (List.mem_append_right _ ?_)))
      exact first_pathPartsReads (by decide)
    · intro within position member
      have inside := within _ _ rfl
      obtain ⟨-, -, -, reads⟩ := components_splitOn memoryTurns p inside (Nat.lt_add_right p pathStr.fits)
      simp only [List.mem_append, List.mem_cons] at member
      rcases member with member | rfl | member | member
      · exact strlen position member
      · exact Nat.zero_le _
      · exact startReads_inside nonempty member
      · exact reads position member

/-- **The contract of the parser**: it accepts exactly the grammar and reads nothing behind the
terminator. -/
structure ParsesGrammar (machine : Machine) (pathStr : CString) (heap : Kheap) (pathRoot : Ptr) :
    Prop where
  accepts : Accepts machine pathStr heap pathRoot ↔ pathStr.InGrammar
  inside : ∀ position ∈ pparserReads pathStr, position ≤ pathStr.strlen

/-- A string that slips through is in the parser's hands, and not in the grammar. -/
theorem CString.SlipsThrough.start (slips : pathStr.SlipsThrough) :
    pathStart pathStr = some (charToNumeric (pathStr.charAt 0), 3) ∧ ¬ pathStr.InGrammar := by
  obtain ⟨short, digit, wrong⟩ := slips
  constructor
  · refine pathStart_iff.mpr ⟨short, digit, not_aboveStart_iff.mpr ?_, rfl, rfl⟩
    rcases wrong with wrong | ⟨colon, slash, -⟩
    · exact .inl wrong
    · exact .inr ⟨colon, slash⟩
  · intro grammar
    obtain ⟨limit, -, colon, slash⟩ := inGrammar_iff.mp grammar
    rcases wrong with first | ⟨-, -, long⟩
    · rw [colon, slash] at first
      exact absurd first (by unfold BelowStart; decide)
    · exact absurd limit (not_le.mpr long)

theorem start_of_inGrammar (grammar : pathStr.InGrammar) :
    pathStart pathStr = some (charToNumeric (pathStr.charAt 0), 3) ∧ 3 ≤ pathStr.strlen := by
  obtain ⟨short, digit, colon, slash⟩ := inGrammar_iff.mp grammar
  obtain ⟨-, _, rest, -, text⟩ := grammar
  have limit : pathStr.strlen ≤ 256 := short
  constructor
  · refine pathStart_iff.mpr ⟨?_, digit, not_aboveStart_iff.mpr (.inr ⟨colon, slash⟩), rfl, rfl⟩
    rw [int32_of_range (by omega) (by omega)]
    exact_mod_cast short
  · have length : pathStr.strlen = rest.length + 3 := congrArg List.length text
    omega

theorem CString.SlipsThrough.not_parsesGrammar (ample : Ample machine.allocator) (root : pathRoot ≠ 0)
    (slips : pathStr.SlipsThrough) : ¬ ParsesGrammar machine pathStr heap pathRoot := by
  rintro ⟨accepts, inside⟩
  obtain ⟨start, outside⟩ := slips.start
  have below := reads_inside_iff.mp inside _ _ start
  obtain ⟨names, ends, -⟩ := components_splitOn memoryTurns 3 below (Nat.lt_add_right 3 pathStr.fits)
  exact outside (accepts.mp ((accepts_iff ample root).mpr ⟨_, _, start, by rw [ends]; nofun⟩))

/-- **The parser meets its grammar** exactly on the strings that do not slip through. -/
theorem path_grammar_iff (ample : Ample machine.allocator) (root : pathRoot ≠ 0) :
    ParsesGrammar machine pathStr heap pathRoot ↔ ¬ pathStr.SlipsThrough := by
  constructor
  · exact fun parses slips => slips.not_parsesGrammar ample root parses
  · intro sound
    have grammar {driveNo : Int} {p : Nat} (starts : pathStart pathStr = some (driveNo, p)) :
        pathStr.InGrammar := by
      obtain ⟨short, digit, start, -, -⟩ := pathStart_iff.mp starts
      rcases not_aboveStart_iff.mp start with wrong | ⟨colon, slash⟩
      · exact absurd ⟨short, digit, .inl wrong⟩ sound
      · refine inGrammar_iff.mpr ⟨not_lt.mp fun long => ?_, digit, colon, slash⟩
        exact sound ⟨short, digit, .inr ⟨colon, slash, long⟩⟩
    constructor
    · rw [accepts_iff ample root]
      constructor
      · rintro ⟨_, _, starts, -⟩
        exact grammar starts
      · intro inside
        obtain ⟨start, below⟩ := start_of_inGrammar inside
        obtain ⟨names, ends, -⟩ :=
          components_splitOn memoryTurns 3 below (Nat.lt_add_right 3 pathStr.fits)
        exact ⟨_, _, start, by rw [ends]; nofun⟩
    · refine reads_inside_iff.mpr fun driveNo p starts => ?_
      obtain ⟨start, below⟩ := start_of_inGrammar (grammar starts)
      cases start.symm.trans starts
      exact below

/-- **Parsing loses nothing.** The parts of an accepted path hold no slash, and joined with slashes they
are the text behind the start. -/
theorem parse_loses_nothing {digit : UInt8} {rest : List UInt8} (ample : Ample machine.allocator)
    (root : pathRoot ≠ 0) (short : pathStr.strlen ≤ pparserMaxPath) (numeral : isDigit digit = true)
    (text : pathStr.text.chars = digit :: 58 :: 47 :: rest) :
    ∃ parts heap', pparserParsePathRoot machine pathStr heap pathRoot = .ok (0, heap') ∧
      heap'.lookup pathRoot = some (.pathRoot ⟨charToNumeric digit, parts⟩) ∧ parts ≠ [] ∧
      (∀ part ∈ parts, 47 ∉ part.name.chars) ∧
      [47].intercalate (parts.map fun part => part.name.chars) = rest ∧
      parts.length = rest.count 47 + 1 := by
  obtain ⟨start, below⟩ := start_of_inGrammar ⟨short, digit, rest, numeral, text⟩
  obtain ⟨names, ends, pieces, -⟩ :=
    components_splitOn memoryTurns 3 below (Nat.lt_add_right 3 pathStr.fits)
  have first : pathStr.charAt 0 = digit := by
    rw [CString.charAt_inside (by omega), text]
    rfl
  rw [first] at start
  rw [text] at pieces
  replace pieces : names.map Text.chars = rest.splitOn 47 := pieces
  have outcome := @parseRoot_outcome machine pathStr heap pathRoot
  generalize pparserParsePathRoot machine pathStr heap pathRoot = result at outcome ⊢
  cases outcome with
  | rejected none negative =>
    rw [start] at none
    cases none
  | refused start missing =>
    exact absurd ⟨parts_granted ample _ _ _ (ample _ _ (by decide)), fun _ => root⟩ missing
  | diverges starts granted endless =>
    cases start.symm.trans starts
    rw [ends] at endless
    cases endless
  | @parsed driveNo p part parts heap' starts granted found nonnull calls spares =>
    cases start.symm.trans starts
    cases ends.symm.trans found
    have split : (part :: parts).map (fun part => part.name.chars) = rest.splitOn 47 := by
      rw [← pieces, ← List.map_cons, List.map_map]
      rfl
    refine ⟨part :: parts, _, rfl, Store.lookup_put_self, nofun, fun other member => ?_, ?_, ?_⟩
    · apply @not_mem_of_mem_splitOn _ _ _ 47 rest
      rw [← split]
      exact List.mem_map_of_mem member
    · rw [split, List.intercalate_splitOn]
    · rw [← length_splitOn, ← split, List.length_map]

end Acceptance

/-! ### Small strings -/

section Small

theorem path_grammar_iff_tree : ParsesGrammar treeMachine treePath bootKernel.heap 1 := by
  refine (path_grammar_iff (fun _ _ _ => rfl) (by decide)).mpr ?_
  unfold CString.SlipsThrough BelowStart
  decide

/-- `"0"`. -/
def shortPath : CString := ⟨⟨[48], by decide⟩, fun _ => 0, by decide⟩

/-- `"0-x"`. -/
def dashPath : CString := ⟨⟨[48, 45, 120], by decide⟩, fun _ => 0, by decide⟩

/-- The parser accepts both, and of the first it reads what lies behind. -/
theorem path_grammar_fails :
    ¬ ParsesGrammar treeMachine shortPath bootKernel.heap 1 ∧
      ¬ ParsesGrammar treeMachine dashPath bootKernel.heap 1 := by
  constructor
  · apply CString.SlipsThrough.not_parsesGrammar (fun _ _ _ => rfl) (by decide)
    unfold CString.SlipsThrough BelowStart
    decide
  · apply CString.SlipsThrough.not_parsesGrammar (fun _ _ _ => rfl) (by decide)
    unfold CString.SlipsThrough BelowStart
    decide

/-- `"1:/a//b/"`. -/
def slashesPath : CString := ⟨⟨[49, 58, 47, 97, 47, 47, 98, 47], by decide⟩, fun _ => 0, by decide⟩

theorem parse_loses_nothing_slashes :
    ∃ parts heap', pparserParsePathRoot treeMachine slashesPath bootKernel.heap 1 = .ok (0, heap') ∧
      heap'.lookup 1 = some (.pathRoot ⟨1, parts⟩) ∧
      [47].intercalate (parts.map fun part => part.name.chars) = [97, 47, 47, 98, 47] ∧
      parts.length = 4 := by
  obtain ⟨parts, heap', parses, record, -, -, joined, count⟩ :=
    @parse_loses_nothing treeMachine slashesPath bootKernel.heap 1 49 [97, 47, 47, 98, 47] (fun _ _ _ => rfl)
      (by decide) (by decide) (by decide) rfl
  exact ⟨parts, heap', parses, record, joined, count⟩

end Small

end KernelPlay
