import BcmDhd.EventLog.Search

namespace BcmDhd.EventLog

open Lib

/-- Whatever the allocations come to, the parser comes to an end and all it does stays where it
should. -/
def SafeParse (ptr : Pointers) (dbg : Option LogLevels) (seqnumPrev : Nat) (mem : Memory) (datalen : Nat) :
    Prop :=
  ∀ heap, ∃ turns log, dhdDbgMsgtraceLogParser ptr turns heap dbg seqnumPrev mem datalen = some log ∧
    ∀ access ∈ log, access.Within datalen

/-- An entry has the words of its event and of its header at least, and no value with one of these
tags stands in its data. -/
def NoValues (mem : Memory) (ids : List Nat) (hdr data : Int) : Prop :=
  2 ≤ hdrCount mem hdr ∧
    ¬Comes (tlvStep mem (data + 4 + tlvLen mem hdr)) (IsTlv mem (data + 4 + tlvLen mem hdr) ids) (data + 4)

/-- A time stamp in front of an entry's data lies in the message as far as its count says. -/
def TimestampInside (mem : Memory) (data : Int) : Prop :=
  hdrTag mem (data - hdrlen) = eventLogTagTs → 4 * hdrCount mem (data - hdrlen) ≤ data - hdrlen

section Entries

variable (mem : Memory)

/-- An entry lies in what is left, and does not have too many arguments. -/
def Whole (left : Nat) : Prop :=
  4 * hdrCount mem (entryHdr left) + hdrlen ≤ left ∧
    ¬(maxNoOfArg < hdrCount mem (entryHdr left) ∧ hdrFmtNum mem (entryHdr left) ≠ 0xffff)

instance (left : Nat) : Decidable (Whole mem left) := inferInstanceAs (Decidable (_ ∧ _))

def entrySize (left : Nat) : Nat :=
  if hdrTag mem (entryHdr left) = eventLogTagNull then hdrlen else hdrCount mem (entryHdr left) * 4 + hdrlen

/-- From the end of one entry to the end of the one in front of it. -/
def entryStep (left : Nat) : Option Nat := if Whole mem left then some (left - entrySize mem left) else none

/-- The entry at the end of what is left is one for the handlers. -/
def IsEntry (hdr : Int) (left : Nat) : Prop :=
  Whole mem left ∧ hdrTag mem hdr ≠ eventLogTagNull ∧ hdrTag mem hdr ≠ eventLogTagTs ∧ hdr = entryHdr left

/-- A header of the message, split from its end. -/
def Entry (left : Nat) (hdr : Int) : Prop := Comes (entryStep mem) (IsEntry mem hdr) left

end Entries

section Quiet

variable (mem : Memory)

/-- An entry of the NAN event ring's that is not filtered out. -/
def NanEntry (levels : LogLevels) (tag : Nat) : Prop :=
  levels.nanEvent ≠ 0 ∧ ∃ level ≤ levels.nanEvent, (level, tag) ∈ nanEventLevelMap

/-- An entry of the event ring's. -/
abbrev EventEntry (tag : Nat) : Prop := tag ∈ fwEventLevelMap.map Prod.snd

def NanQuiet (hdr data : Int) : Prop :=
  idVersion mem data = diagVersion → TimestampInside mem data ∧
    (idEvent mem data ∈ nanEventMap → NoValues mem nanEvtTagMap hdr data)

def EventQuiet (levels : LogLevels) (hdr data : Int) : Prop :=
  idVersion mem data = diagVersion → TimestampInside mem data ∧
    (idEvent mem data ∈ eventMap → filteredOut levels.fwEvent (hdrTag mem hdr) = false →
      NoValues mem eventTagMap hdr data)

/-- What the handlers need of an entry: a time stamp in the message, and nothing to copy. -/
def Quiet (dbg : Option LogLevels) (hdr : Int) : Prop :=
  ∀ levels, dbg = some levels →
    (NanEntry levels (hdrTag mem hdr) → NanQuiet mem hdr (hdr - 4 * hdrCount mem hdr)) ∧
    (EventEntry (hdrTag mem hdr) → EventQuiet mem levels hdr (hdr - 4 * hdrCount mem hdr))

end Quiet

section Handlers

variable {ptr : Pointers} {mem : Memory} {heap : Heap} {levels : LogLevels} {hdr data : Int} {turns datalen : Nat}
  {handled : Bcme × List Access}

/-- An entry's data and header lie in the log data of a message. -/
structure Placed (mem : Memory) (datalen : Nat) (hdr data : Int) : Prop where
  place : data = hdr - 4 * hdrCount mem hdr
  front : dataStart ≤ data
  back : hdr + hdrlen ≤ datalen

theorem Placed.bounds (placed : Placed mem datalen hdr data) :
    0 ≤ data ∧ data + 4 * hdrCount mem hdr = hdr ∧ hdr + 4 ≤ datalen := by
  have place := placed.place
  have front := placed.front
  have back := placed.back
  unfold dataStart msgtraceHdrlen hdrlen at *
  push_cast at *
  omega

theorem Placed.word (placed : Placed mem datalen hdr data) : Access.Within datalen (.read data 4) := by
  have bounds := placed.bounds
  unfold Access.Within
  omega

theorem Placed.header (placed : Placed mem datalen hdr data) : Access.Within datalen (.read hdr 4) := by
  have bounds := placed.bounds
  unfold Access.Within
  omega

theorem Placed.words (placed : Placed mem datalen hdr data) :
    Access.Within datalen (.read data (4 * hdrCount mem hdr)) := by
  have bounds := placed.bounds
  unfold Access.Within
  omega

/-- The time stamp in front is read inside the message exactly if its count says so. -/
theorem readTimestamp_within_iff (placed : Placed mem datalen hdr data) :
    (∀ access ∈ readTimestamp mem data, access.Within datalen) ↔ TimestampInside mem data := by
  have place := placed.place
  have front := placed.front
  have back := placed.back
  unfold readTimestamp TimestampInside
  unfold dataStart msgtraceHdrlen hdrlen at *
  by_cases stamp : hdrTag mem (data - (4 : Nat)) = eventLogTagTs
  · simp only [if_pos stamp, List.mem_cons, List.not_mem_nil, or_false, forall_eq_or_imp, forall_eq, Access.Within]
    push_cast at *
    constructor
    · intro within _
      omega
    · intro inside
      have fits := inside stamp
      omega
  · simp only [if_neg stamp, List.mem_singleton, forall_eq, Access.Within]
    push_cast at *
    constructor
    · exact fun _ same => absurd same stamp
    · intro _
      omega

theorem tlvsEnd_of_enough {ptr : Pointers} (enough : 2 ≤ hdrCount mem hdr) :
    tlvsEnd ptr (data + 4) (tlvLen mem hdr) = data + 4 + tlvLen mem hdr := by
  have small : hdrCount mem hdr < 256 := (mem (hdr + 1)).toNat_lt
  cases ptr with
  | ilp32 => rfl
  | lp64 =>
    unfold tlvsEnd tlvLen
    dsimp only
    omega

/-- The values of an entry with enough words end in front of its header, so that looking for them
does not leave the message. -/
theorem NoValues.search {ids : List Nat} (none_ : NoValues mem ids hdr data)
    (placed : Placed mem datalen hdr data) (ptr : Pointers) :
    ¬Comes (tlvStep mem (tlvsEnd ptr (data + 4) (tlvLen mem hdr)))
      (fun pos => Outside mem (tlvsEnd ptr (data + 4) (tlvLen mem hdr)) datalen pos ∨
        IsTlv mem (tlvsEnd ptr (data + 4) (tlvLen mem hdr)) ids pos) (data + 4) := by
  obtain ⟨enough, absent⟩ := none_
  have bounds := placed.bounds
  have inside : ∀ pos, ¬Comes (tlvStep mem (data + 4 + tlvLen mem hdr))
      (Outside mem (data + 4 + tlvLen mem hdr) datalen) pos := by
    intro pos comes
    induction comes with
    | here outside =>
      unfold Outside tlvLen at outside
      omega
    | later _ _ ih => exact ih
  rw [tlvsEnd_of_enough enough, Comes.or_iff]
  rintro (comes | comes)
  · exact inside _ comes
  · exact absent comes

/-- What a handler reads of an entry before it copies values, with these if the version is right. -/
def entryReads (mem : Memory) (data : Int) (rest : List Access) : List Access :=
  if idVersion mem data = diagVersion then .read data 4 :: readTimestamp mem data ++ rest else [.read data 4]

/-- All that a handler does with an entry: where it is asked for the values with these tags, and
has a buffer for them, it copies them in the end. -/
def Handles (ptr : Pointers) (mem : Memory) (heap : Heap) (hdr data : Int) (size : Nat)
    (fields : List (Int × Nat)) (ids : List Nat) (rest : List Access) (asked : Prop) [Decidable asked]
    (run : Nat → Option (Bcme × List Access)) : Prop :=
  match if asked then heap.payload hdr else none with
  | none => ∃ status, ∀ turns, run turns = some (status, entryReads mem data rest)
  | some tlvs => ∀ turns, run turns =
      (copyTlvs ptr turns mem (data + 4) (tlvLen mem hdr) (size + tlvLen mem hdr) ids tlvs size).map
        fun copied => (.ok, entryReads mem data rest ++ (fillPayload ptr (size + tlvLen mem hdr) fields ++
          copied.2 ++ pushPayload (heap.active hdr) (size + tlvLen mem hdr) copied.1))

section Handles

variable {size : Nat} {fields : List (Int × Nat)} {ids : List Nat} {rest : List Access} {asked : Prop} [Decidable asked]
  {run : Nat → Option (Bcme × List Access)}

theorem Handles.ends (handles : Handles ptr mem heap hdr data size fields ids rest asked run) :
    ∃ enough, ∀ turns, enough ≤ turns → ∃ handled, run turns = some handled := by
  unfold Handles at handles
  split at handles
  · obtain ⟨status, same⟩ := handles
    exact ⟨0, fun turns _ => ⟨_, same turns⟩⟩
  · obtain ⟨enough, ends⟩ := copyTlvs_ends ptr mem (data + 4) (tlvLen mem hdr) (size + tlvLen mem hdr) ids
    refine ⟨enough, fun turns more => ?_⟩
    obtain ⟨copied, done⟩ := ends turns more _ _
    exact ⟨_, by rw [handles turns, done]; rfl⟩

theorem Handles.within (handles : Handles ptr mem heap hdr data size fields ids rest asked run)
    (placed : Placed mem datalen hdr data) (inside : ∀ access ∈ rest, access.Within datalen)
    (stamp : idVersion mem data = diagVersion → TimestampInside mem data)
    (values : asked → NoValues mem ids hdr data) (struct : 2 * ptr.sizeofPointer = size)
    (small : ∀ field ∈ fields, 0 ≤ field.1 ∧ field.1 + field.2 ≤ size) (done : run turns = some handled) :
    ∀ access ∈ handled.2, access.Within datalen := by
  have before : ∀ access ∈ entryReads mem data rest, access.Within datalen := by
    unfold entryReads
    split
    · rename_i version
      have stamped := (readTimestamp_within_iff placed).mpr (stamp version)
      rintro access (_ | ⟨_, member⟩)
      · exact placed.word
      · exact (List.mem_append.mp member).elim (stamped access) (inside access)
    · simpa only [List.mem_singleton, forall_eq] using placed.word
  unfold Handles at handles
  split at handles
  · obtain ⟨status, same⟩ := handles
    cases (same turns).symm.trans done
    exact before
  · rename_i tlvs buffer
    obtain ⟨copied, copies, rfl⟩ := Option.map_eq_some_iff.mp ((handles turns).symm.trans done)
    have wanted : asked := by_contra fun other => nomatch (if_neg other).symm.trans buffer
    have bounds := placed.bounds
    have enough := (values wanted).1
    have room : (size : Int) ≤ size + tlvLen mem hdr := by
      unfold tlvLen
      omega
    obtain ⟨total, read_⟩ := copyTlvs_within (by omega) ((values wanted).search placed ptr) copies
    intro access member
    rcases List.mem_append.mp member with early | member
    · exact before access early
    rcases List.mem_append.mp member with member | pushed
    · rcases List.mem_append.mp member with filled | copied
      · unfold fillPayload at filled
        rcases List.mem_append.mp filled with field | pointer
        · obtain ⟨one, listed, rfl⟩ := List.mem_map.mp field
          exact ⟨(small one listed).1, (small one listed).2.trans room⟩
        · rw [List.mem_singleton.mp pointer]
          unfold Access.Within
          omega
      · exact read_ access copied
    · rw [total, pushPayload] at pushed
      split at pushed
      · rw [List.mem_singleton.mp pushed]
        unfold Access.Within
        omega
      · exact absurd pushed List.not_mem_nil

theorem Handles.quiet (handles : Handles ptr mem heap hdr data size fields ids rest asked run)
    (placed : Placed mem datalen hdr data) (wild : heap.payload hdr = some (-1)) (some_ : ids ≠ [])
    (struct : 2 * ptr.sizeofPointer = size) (done : run turns = some handled)
    (within : ∀ access ∈ handled.2, access.Within datalen) :
    (idVersion mem data = diagVersion → TimestampInside mem data) ∧ (asked → NoValues mem ids hdr data) := by
  have stamped : (∀ access ∈ entryReads mem data rest, access.Within datalen) →
      idVersion mem data = diagVersion → TimestampInside mem data := by
    intro before version
    rw [entryReads, if_pos version] at before
    exact (readTimestamp_within_iff placed).mp fun access read => before access (by simp [read])
  unfold Handles at handles
  by_cases wanted : asked
  · simp only [if_pos wanted, wild] at handles
    obtain ⟨copied, copies, rfl⟩ := Option.map_eq_some_iff.mp ((handles turns).symm.trans done)
    refine ⟨stamped fun access read => within access (List.mem_append_left _ read), fun _ => ?_⟩
    have pointer : Access.Within datalen (.payload (size + tlvLen mem hdr) ptr.sizeofPointer ptr.sizeofPointer) :=
      within _ (List.mem_append_right _ (by simp [fillPayload]))
    have enough : 2 ≤ hdrCount mem hdr := by
      unfold Access.Within tlvLen at pointer
      omega
    have nothing := copyTlvs_none some_ copies fun access read => within access (by simp [read])
    refine ⟨enough, fun comes => nothing (Comes.or_iff.mpr (Or.inr ?_))⟩
    rw [tlvsEnd_of_enough enough]
    exact comes
  · simp only [if_neg wanted] at handles
    obtain ⟨status, same⟩ := handles
    cases (same turns).symm.trans done
    exact ⟨stamped within, fun also => absurd also wanted⟩

end Handles

theorem nanHandler_handles (ptr : Pointers) (mem : Memory) (heap : Heap) (hdr data : Int) :
    Handles ptr mem heap hdr data ptr.sizeofLogNanEvent [(0, 1), (2, 2)] nanEvtTagMap
      (if idEvent mem data ∈ nanEventMap then [.read hdr 4] else [])
      (idVersion mem data = diagVersion ∧ idEvent mem data ∈ nanEventMap)
      (fun turns => dhdDbgNanEventHandler ptr turns mem heap hdr data) := by
  unfold Handles entryReads dhdDbgNanEventHandler
  by_cases version : idVersion mem data = diagVersion
  · by_cases event : idEvent mem data ∈ nanEventMap
    · simp only [version, event, ne_eq, not_true_eq_false, and_self, if_true, if_false]
      cases heap.payload hdr with
      | none => exact ⟨_, fun _ => rfl⟩
      | some tlvs =>
        intro turns
        rw [Option.map_eq_bind]
        simp
    · simp only [version, event, ne_eq, not_true_eq_false, and_false, if_true, if_false, List.append_nil]
      exact ⟨_, fun _ => rfl⟩
  · simp only [version, ne_eq, not_false_eq_true, false_and, if_true, if_false]
    exact ⟨_, fun _ => rfl⟩

theorem customHandler_handles (ptr : Pointers) (mem : Memory) (heap : Heap) (logLevel hdr data : Int) :
    Handles ptr mem heap hdr data ptr.sizeofLogConnEvent [(0, 2)] eventTagMap
      [.read hdr 4, .read data (4 * hdrCount mem hdr)]
      (idVersion mem data = diagVersion ∧ idEvent mem data ∈ eventMap ∧
        filteredOut logLevel (hdrTag mem hdr) = false)
      (fun turns => dhdDbgCustomEvntHandler ptr turns mem heap logLevel hdr data) := by
  unfold Handles entryReads dhdDbgCustomEvntHandler
  by_cases version : idVersion mem data = diagVersion
  · by_cases event : idEvent mem data ∈ eventMap
    · cases filtered : filteredOut logLevel (hdrTag mem hdr) with
      | true =>
        simp only [version, event, ne_eq, not_true_eq_false, Bool.true_eq_false, and_false, if_true, if_false]
        exact ⟨_, fun _ => rfl⟩
      | false =>
        simp only [version, event, ne_eq, not_true_eq_false, and_self, Bool.false_eq_true, if_true, if_false]
        cases heap.payload hdr with
        | none => exact ⟨_, fun _ => rfl⟩
        | some tlvs =>
          intro turns
          rw [Option.map_eq_bind]
          simp
    · simp only [version, event, ne_eq, not_true_eq_false, false_and, and_false, if_true, if_false]
      exact ⟨_, fun _ => rfl⟩
  · simp only [version, ne_eq, not_false_eq_true, false_and, if_true, if_false]
    exact ⟨_, fun _ => rfl⟩

end Handlers

section Items

variable {ptr : Pointers} {mem : Memory} {heap : Heap} {dbg : Option LogLevels} {levels : LogLevels} {hdr : Int}
  {turns datalen : Nat} {log : List Access}

theorem nanLevel_find_iff {entry : Nat × Nat} {tag : Nat} :
    (nanEventLevelMap.find? fun entry => entry.2 = tag) = some entry ↔ entry ∈ nanEventLevelMap ∧ entry.2 = tag := by
  constructor
  · intro found
    have same := List.find?_some found
    exact ⟨List.mem_of_find?_eq_some found, of_decide_eq_true same⟩
  · rintro ⟨member, rfl⟩
    simp only [nanEventLevelMap, List.mem_cons, List.not_mem_nil, or_false] at member
    rcases member with rfl | rfl | rfl
    · rfl
    · rfl
    · rfl

theorem nanLevel_not_event {level tag : Nat} (member : (level, tag) ∈ nanEventLevelMap) : ¬EventEntry tag := by
  simp only [nanEventLevelMap, List.mem_cons, List.not_mem_nil, or_false, Prod.mk.injEq] at member
  rcases member with ⟨-, rfl⟩ | ⟨-, rfl⟩ | ⟨-, rfl⟩
  · decide
  · decide
  · decide

/-- What the part about the NAN event ring does with an entry. -/
theorem nanPart_cases (ptr : Pointers) (turns : Nat) (mem : Memory) (heap : Heap) (levels : LogLevels)
    (hdr data : Int) :
    (¬NanEntry levels (hdrTag mem hdr) ∧ nanPart ptr turns mem heap levels hdr data = some (false, [])) ∨
    (¬NanEntry levels (hdrTag mem hdr) ∧ ¬EventEntry (hdrTag mem hdr) ∧
      nanPart ptr turns mem heap levels hdr data = some (true, [])) ∨
    (NanEntry levels (hdrTag mem hdr) ∧ ¬EventEntry (hdrTag mem hdr) ∧
      nanPart ptr turns mem heap levels hdr data = (dhdDbgNanEventHandler ptr turns mem heap hdr data).map
        fun handled => (decide (handled.1 ≠ .version), handled.2)) := by
  unfold nanPart
  by_cases off : levels.nanEvent = 0
  · left
    exact ⟨fun entry => entry.1 off, if_pos off⟩
  rw [if_neg off]
  cases found : nanEventLevelMap.find? fun entry => entry.2 = hdrTag mem hdr with
  | none =>
    left
    refine ⟨?_, rfl⟩
    rintro ⟨-, level, -, member⟩
    have also := nanLevel_find_iff.mpr ⟨member, rfl⟩
    rw [found] at also
    cases also
  | some entry =>
    right
    obtain ⟨member, same⟩ := nanLevel_find_iff.mp found
    obtain ⟨level, tag⟩ := entry
    dsimp only at same ⊢
    subst same
    by_cases filtered : levels.nanEvent < level
    · left
      refine ⟨?_, nanLevel_not_event member, if_pos filtered⟩
      rintro ⟨-, other, allowed, also⟩
      have twice := nanLevel_find_iff.mpr ⟨also, rfl⟩
      cases found.symm.trans twice
      omega
    · right
      refine ⟨⟨off, level, not_lt.mp filtered, member⟩, nanLevel_not_event member, ?_⟩
      rw [if_neg filtered]
      cases dhdDbgNanEventHandler ptr turns mem heap hdr data with
      | none => rfl
      | some handled => rfl

theorem handleItem_ends (ptr : Pointers) (mem : Memory) (heap : Heap) (dbg : Option LogLevels) (hdr : Int) :
    ∃ enough, ∀ turns, enough ≤ turns → ∃ log, handleItem ptr turns mem heap dbg hdr = some log := by
  cases dbg with
  | none => exact ⟨0, fun _ _ => ⟨_, rfl⟩⟩
  | some levels =>
    obtain ⟨few, nanEnds⟩ := (nanHandler_handles ptr mem heap hdr (hdr - 4 * hdrCount mem hdr)).ends
    obtain ⟨more, customEnds⟩ :=
      (customHandler_handles ptr mem heap levels.fwEvent hdr (hdr - 4 * hdrCount mem hdr)).ends
    refine ⟨max few more, fun turns enough => ?_⟩
    obtain ⟨nan, done⟩ := nanEnds turns (by omega)
    obtain ⟨custom, also⟩ := customEnds turns (by omega)
    have part : ∃ part, nanPart ptr turns mem heap levels hdr (hdr - 4 * hdrCount mem hdr) = some part := by
      rcases nanPart_cases ptr turns mem heap levels hdr (hdr - 4 * hdrCount mem hdr) with
        ⟨-, same⟩ | ⟨-, -, same⟩ | ⟨-, -, same⟩
      · exact ⟨_, same⟩
      · exact ⟨_, same⟩
      · exact ⟨_, same.trans (by rw [done]; rfl)⟩
    obtain ⟨part, same⟩ := part
    unfold handleItem
    simp only [same, also, Option.bind_eq_bind, Option.bind_some, Option.pure_def]
    split
    · exact ⟨_, rfl⟩
    · split
      · exact ⟨_, rfl⟩
      · exact ⟨_, rfl⟩

theorem handleItem_within (placed : Placed mem datalen hdr (hdr - 4 * hdrCount mem hdr))
    (quiet : Quiet mem dbg hdr) (done : handleItem ptr turns mem heap dbg hdr = some log) :
    ∀ access ∈ log, access.Within datalen := by
  cases dbg with
  | none =>
    cases done
    exact fun _ member => absurd member List.not_mem_nil
  | some levels =>
    obtain ⟨nanQuiet, eventQuiet⟩ := quiet levels rfl
    unfold handleItem at done
    rcases nanPart_cases ptr turns mem heap levels hdr (hdr - 4 * hdrCount mem hdr) with
      ⟨-, same⟩ | ⟨-, -, same⟩ | ⟨nan, unlisted, same⟩
    · simp only [same, Option.bind_eq_bind, Option.bind_some, Bool.false_eq_true, if_false] at done
      by_cases listed : hdrTag mem hdr ∈ fwEventLevelMap.map Prod.snd
      · rw [if_pos listed] at done
        cases custom : dhdDbgCustomEvntHandler ptr turns mem heap levels.fwEvent hdr
            (hdr - 4 * hdrCount mem hdr) with
        | none =>
          rw [custom] at done
          cases done
        | some handled =>
          rw [custom] at done
          cases done
          have rest : ∀ access ∈ [Access.read hdr 4, .read (hdr - 4 * hdrCount mem hdr) (4 * hdrCount mem hdr)],
              access.Within datalen := by
            simp only [List.mem_cons, List.not_mem_nil, or_false, forall_eq_or_imp, forall_eq]
            exact ⟨placed.header, placed.words⟩
          exact (customHandler_handles ptr mem heap _ hdr _).within placed rest
            (fun version => (eventQuiet listed version).1)
            (fun asked => (eventQuiet listed asked.1).2 asked.2.1 asked.2.2)
            (by cases ptr <;> rfl) (by cases ptr <;> decide) custom
      · rw [if_neg listed] at done
        cases done
        exact fun _ member => absurd member List.not_mem_nil
    · simp only [same, Option.bind_eq_bind, Option.bind_some, if_true] at done
      cases done
      exact fun _ member => absurd member List.not_mem_nil
    · cases handler : dhdDbgNanEventHandler ptr turns mem heap hdr (hdr - 4 * hdrCount mem hdr) with
      | none =>
        rw [handler] at same
        simp only [same] at done
        cases done
      | some handled =>
        rw [handler] at same
        have rest : ∀ access ∈ (if idEvent mem (hdr - 4 * hdrCount mem hdr) ∈ nanEventMap then
            [Access.read hdr 4] else []), access.Within datalen := by
          split
          · simpa only [List.mem_singleton, forall_eq] using placed.header
          · exact fun _ member => absurd member List.not_mem_nil
        have read_ := (nanHandler_handles ptr mem heap hdr _).within placed rest
          (fun version => (nanQuiet nan version).1) (fun asked => (nanQuiet nan asked.1).2 asked.2)
          (by cases ptr <;> rfl) (by cases ptr <;> decide) handler
        simp only [same, Option.map_some, Option.bind_eq_bind, Option.bind_some, Option.pure_def] at done
        rw [if_neg unlisted] at done
        split at done
        · cases done
          exact read_
        · cases done
          exact read_

theorem handleItem_quiet (placed : Placed mem datalen hdr (hdr - 4 * hdrCount mem hdr))
    (wild : heap.payload hdr = some (-1)) (done : handleItem ptr turns mem heap dbg hdr = some log)
    (within : ∀ access ∈ log, access.Within datalen) : Quiet mem dbg hdr := by
  rintro levels rfl
  unfold handleItem at done
  rcases nanPart_cases ptr turns mem heap levels hdr (hdr - 4 * hdrCount mem hdr) with
    ⟨notNan, same⟩ | ⟨notNan, notEvent, -⟩ | ⟨-, notEvent, same⟩
  · refine ⟨fun nan => absurd nan notNan, fun listed => ?_⟩
    simp only [same, Option.bind_eq_bind, Option.bind_some, Bool.false_eq_true, if_false] at done
    rw [if_pos listed] at done
    cases custom : dhdDbgCustomEvntHandler ptr turns mem heap levels.fwEvent hdr (hdr - 4 * hdrCount mem hdr) with
    | none =>
      rw [custom] at done
      cases done
    | some handled =>
      rw [custom] at done
      cases done
      have quiet := (customHandler_handles ptr mem heap _ hdr _).quiet placed wild (by decide)
        (by cases ptr <;> rfl) custom within
      exact fun version => ⟨quiet.1 version, fun event unfiltered => quiet.2 ⟨version, event, unfiltered⟩⟩
  · exact ⟨fun nan => absurd nan notNan, fun listed => absurd listed notEvent⟩
  · refine ⟨fun _ => ?_, fun listed => absurd listed notEvent⟩
    cases handler : dhdDbgNanEventHandler ptr turns mem heap hdr (hdr - 4 * hdrCount mem hdr) with
    | none =>
      rw [handler] at same
      simp only [same] at done
      cases done
    | some handled =>
      rw [handler] at same
      simp only [same, Option.map_some, Option.bind_eq_bind, Option.bind_some, Option.pure_def] at done
      rw [if_neg notEvent] at done
      have read_ : handled.2 = log := by
        split at done
        · exact Option.some.inj done
        · exact Option.some.inj done
      have quiet := (nanHandler_handles ptr mem heap hdr _).quiet placed wild (by decide)
        (by cases ptr <;> rfl) handler (read_ ▸ within)
      exact fun version => ⟨quiet.1 version, fun event => quiet.2 ⟨version, event⟩⟩

end Items

section Split

variable {mem : Memory} {heap : Heap} {split next : Splitting} {left datalen : Nat} {hdr : Int} {turns : Nat}

/-- An entry that the parser leaves out itself. -/
def Special (tag : Nat) : Prop := tag = eventLogTagNull ∨ tag = eventLogTagTs

instance (tag : Nat) : Decidable (Special tag) := inferInstanceAs (Decidable (_ ∨ _))

/-- The parser goes on from this end of an entry. -/
def GoesOn (mem : Memory) (heap : Heap) (left : Nat) : Prop :=
  Whole mem left ∧ (Special (hdrTag mem (entryHdr left)) ∨ heap.item (entryHdr left) = true)

theorem Whole.less (whole : Whole mem left) : 0 < entrySize mem left ∧ entrySize mem left ≤ left := by
  have fits := whole.1
  unfold entrySize
  unfold hdrlen at *
  split
  · omega
  · omega

theorem minus_of_le {datalen amount : Nat} (fits : amount ≤ datalen) (small : datalen < 2 ^ 32) :
    minus datalen amount = datalen - amount := by
  unfold minus
  omega

/-- One turn goes from the end of an entry to the end of the one in front of it. -/
theorem splitTurn_goesOn (goes : GoesOn mem heap split.datalen) (small : split.datalen < 2 ^ 32) :
    splitTurn mem heap split = .again
      { datalen := split.datalen - entrySize mem split.datalen
        list := if Special (hdrTag mem (entryHdr split.datalen)) then split.list
          else entryHdr split.datalen :: split.list
        log := split.log ++ [.read (entryHdr split.datalen) hdrlen] ++
          [.shrink split.datalen (entrySize mem split.datalen)] } := by
  obtain ⟨whole, room⟩ := goes
  have size := whole.less
  have fits := whole.1
  have argument := whole.2
  have some_ : split.datalen ≠ 0 := by omega
  have pointers : ¬(entryHdr split.datalen - dataStart) / 4 < (hdrCount mem (entryHdr split.datalen) : Int) := by
    unfold hdrlen at fits
    have place : entryHdr split.datalen - dataStart = split.datalen - 4 := by
      unfold entryHdr hdrlen
      push_cast
      ring
    rw [place]
    omega
  have amount : entrySize mem split.datalen =
      if hdrTag mem (entryHdr split.datalen) = eventLogTagNull then hdrlen
      else hdrCount mem (entryHdr split.datalen) * 4 + hdrlen := rfl
  have smaller := minus_of_le size.2 small
  unfold splitTurn
  rw [if_neg some_]
  dsimp only
  rw [if_neg pointers]
  rw [if_neg argument]
  by_cases null : hdrTag mem (entryHdr split.datalen) = eventLogTagNull
  · rw [if_pos null] at amount
    rw [amount] at smaller
    have special : Special (hdrTag mem (entryHdr split.datalen)) := Or.inl null
    rw [if_pos null, if_pos special, amount]
    simp only [Splitting.drop, smaller]
  · rw [if_neg null] at amount
    rw [amount] at smaller
    rw [if_neg null]
    by_cases stamp : hdrTag mem (entryHdr split.datalen) = eventLogTagTs
    · have special : Special (hdrTag mem (entryHdr split.datalen)) := Or.inr stamp
      rw [if_pos stamp, if_pos special, amount]
      simp only [Splitting.drop, smaller]
    · have special : ¬Special (hdrTag mem (entryHdr split.datalen)) := not_or.mpr ⟨null, stamp⟩
      have there : ¬heap.item (entryHdr split.datalen) = false := by
        rw [room.resolve_left special]
        exact Bool.noConfusion
      rw [if_neg stamp, if_neg there, if_neg special, amount]
      simp only [Splitting.drop, smaller]

/-- Where it does not go on it may have read one more header. -/
theorem splitTurn_stops (stops : ¬GoesOn mem heap split.datalen) :
    ∃ log, splitTurn mem heap split = .leave { split with log := log } ∧ (log = split.log ∨
      log = split.log ++ [.read (entryHdr split.datalen) hdrlen]) := by
  unfold splitTurn
  by_cases none_ : split.datalen = 0
  · rw [if_pos none_]
    exact ⟨_, rfl, Or.inl rfl⟩
  rw [if_neg none_]
  refine ⟨_, ?_, Or.inr rfl⟩
  dsimp only
  by_cases pointers : (entryHdr split.datalen - dataStart) / 4 < (hdrCount mem (entryHdr split.datalen) : Int)
  · rw [if_pos pointers]
  rw [if_neg pointers]
  by_cases argument : maxNoOfArg < hdrCount mem (entryHdr split.datalen) ∧
    hdrFmtNum mem (entryHdr split.datalen) ≠ 0xffff
  · rw [if_pos argument]
  rw [if_neg argument]
  have whole : Whole mem split.datalen := by
    refine ⟨?_, argument⟩
    unfold hdrlen
    have place : entryHdr split.datalen - dataStart = split.datalen - 4 := by
      unfold entryHdr hdrlen
      push_cast
      ring
    rw [place] at pointers
    omega
  obtain ⟨special, missing⟩ := not_or.mp fun room => stops ⟨whole, room⟩
  obtain ⟨null, stamp⟩ := not_or.mp special
  rw [if_neg null, if_neg stamp, if_pos (Bool.eq_false_iff.mpr missing)]

theorem entry_not_special : IsEntry mem hdr left ↔
    Whole mem left ∧ ¬Special (hdrTag mem (entryHdr left)) ∧ hdr = entryHdr left := by
  constructor
  · rintro ⟨whole, null, stamp, rfl⟩
    exact ⟨whole, not_or.mpr ⟨null, stamp⟩, rfl⟩
  · rintro ⟨whole, special, rfl⟩
    obtain ⟨null, stamp⟩ := not_or.mp special
    exact ⟨whole, null, stamp, rfl⟩

theorem entry_iff : Entry mem left hdr ↔
    Whole mem left ∧ (IsEntry mem hdr left ∨ Entry mem (left - entrySize mem left) hdr) := by
  constructor
  · intro comes
    cases comes with
    | here found => exact ⟨found.1, Or.inl found⟩
    | later stepped comes =>
      unfold entryStep at stepped
      split at stepped
      · rename_i whole
        cases stepped
        exact ⟨whole, Or.inr comes⟩
      · cases stepped
  · rintro ⟨whole, found | comes⟩
    · exact .here found
    · exact .later (if_pos whole) comes

theorem Entry.placed (entry : Entry mem left hdr) (fits : left + 24 ≤ datalen) :
    Placed mem datalen hdr (hdr - 4 * hdrCount mem hdr) := by
  induction entry with
  | @here left found =>
    obtain ⟨whole, -, -, rfl⟩ := found
    have inside := whole.1
    unfold hdrlen at inside
    refine ⟨rfl, ?_, ?_⟩
    · unfold entryHdr dataStart msgtraceHdrlen hdrlen at *
      push_cast at *
      omega
    · unfold entryHdr dataStart msgtraceHdrlen hdrlen at *
      push_cast at *
      omega
  | @later left next stepped comes ih =>
    apply ih
    unfold entryStep at stepped
    split at stepped
    · cases stepped
      omega
    · cases stepped

/-- What the parser has done on its way through a message. -/
structure Sound (mem : Memory) (datalen : Nat) (split : Splitting) : Prop where
  fits : split.datalen + 24 ≤ datalen
  log : ∀ access ∈ split.log, access.Within datalen
  list : ∀ hdr ∈ split.list, Entry mem (datalen - 24) hdr
  rest : ∀ hdr, Entry mem split.datalen hdr → Entry mem (datalen - 24) hdr

theorem read_header (fits : left + 24 ≤ datalen) :
    Access.Within datalen (.read (entryHdr left) hdrlen) := by
  unfold Access.Within entryHdr dataStart msgtraceHdrlen hdrlen
  push_cast
  omega

theorem Sound.again (sound : Sound mem datalen split) (small : datalen < 2 ^ 32)
    (goesOn : splitTurn mem heap split = .again next) :
    Sound mem datalen next ∧ next.datalen < split.datalen := by
  have fits := sound.fits
  by_cases goes : GoesOn mem heap split.datalen
  · have turn := splitTurn_goesOn goes (by omega)
    cases goesOn.symm.trans turn
    have size := goes.1.less
    have rest : ∀ hdr, Entry mem (split.datalen - entrySize mem split.datalen) hdr → Entry mem (datalen - 24) hdr :=
      fun hdr entry => sound.rest hdr (entry_iff.mpr ⟨goes.1, Or.inr entry⟩)
    refine ⟨⟨by dsimp only; omega, ?_, ?_, rest⟩, by dsimp only; omega⟩
    · simp only [List.mem_append, List.mem_singleton]
      rintro access ((member | rfl) | rfl)
      · exact sound.log access member
      · exact read_header fits
      · exact size.2
    · dsimp only
      split
      · exact sound.list
      · rename_i special
        intro hdr member
        rcases List.mem_cons.mp member with rfl | member
        · exact sound.rest _ (entry_iff.mpr ⟨goes.1, Or.inl (entry_not_special.mpr ⟨goes.1, special, rfl⟩)⟩)
        · exact sound.list hdr member
  · obtain ⟨log, turn, -⟩ := splitTurn_stops goes
    cases goesOn.symm.trans turn

section

variable (sound : Sound mem datalen split) (small : datalen < 2 ^ 32)
include sound small

theorem Sound.leave {result : Splitting} (left : splitTurn mem heap split = .leave result) :
    Sound mem datalen result := by
  by_cases goes : GoesOn mem heap split.datalen
  · have fits := sound.fits
    cases left.symm.trans (splitTurn_goesOn goes (by omega))
  · obtain ⟨log, turn, reads⟩ := splitTurn_stops goes
    cases left.symm.trans turn
    refine ⟨sound.fits, ?_, sound.list, sound.rest⟩
    rcases reads with rfl | rfl
    · exact sound.log
    · simp only [List.mem_append, List.mem_singleton]
      rintro access (member | rfl)
      · exact sound.log access member
      · exact read_header sound.fits

theorem split_ends (heap : Heap) :
    ∃ turns result, loopFor (splitTurn mem heap) turns split = some result := by
  obtain ⟨result, done⟩ := Loop.leaves_of_measure (splitTurn mem heap) (Sound mem datalen) Splitting.datalen
    (fun _ _ sound goesOn => sound.again small goesOn) split sound
  exact ⟨_, result, done⟩

theorem split_sound {result : Splitting}
    (done : loopFor (splitTurn mem heap) turns split = some result) : Sound mem datalen result :=
  Loop.loopFor_invariant (fun _ _ sound goesOn => (Sound.again sound small goesOn).1)
    (fun _ _ sound left => Sound.leave sound small left) sound done

/-- With memory for every list item, every entry is put on the list. -/
theorem split_complete (room : ∀ hdr, heap.item hdr = true) {result : Splitting}
    (done : loopFor (splitTurn mem heap) turns split = some result) :
    ∀ hdr, hdr ∈ split.list ∨ Entry mem split.datalen hdr → hdr ∈ result.list := by
  induction turns generalizing split with
  | zero => cases done
  | succ turns ih =>
    by_cases goes : GoesOn mem heap split.datalen
    · have fits := sound.fits
      have turn := splitTurn_goesOn goes (by omega)
      have next := (sound.again small turn).1
      rw [Loop.loopFor_again turn] at done
      intro hdr there
      apply ih next done hdr
      dsimp only
      rcases there with listed | entry
      · left
        split
        · exact listed
        · exact List.mem_cons_of_mem _ listed
      · rcases (entry_iff.mp entry).2 with found | later
        · obtain ⟨-, special, rfl⟩ := entry_not_special.mp found
          left
          rw [if_neg special]
          exact List.mem_cons_self
        · exact Or.inr later
    · obtain ⟨log, turn, -⟩ := splitTurn_stops goes
      rw [Loop.loopFor_leave turn] at done
      cases done
      rintro hdr (listed | entry)
      · exact listed
      · exact absurd ⟨(entry_iff.mp entry).1, Or.inr (room _)⟩ goes

end

end Split

theorem mapM_each {Item Result : Type} {f : Item → Option Result} {list : List Item} {results : List Result}
    (done : list.mapM f = some results) :
    (∀ item ∈ list, ∃ result ∈ results, f item = some result) ∧
      ∀ result ∈ results, ∃ item ∈ list, f item = some result := by
  induction list generalizing results with
  | nil =>
    rw [List.mapM_nil] at done
    cases done
    exact ⟨fun _ member => absurd member List.not_mem_nil, fun _ member => absurd member List.not_mem_nil⟩
  | cons first rest ih =>
    rw [List.mapM_cons] at done
    cases one : f first with
    | none =>
      rw [one] at done
      cases done
    | some result =>
      cases others : rest.mapM f with
      | none =>
        rw [one, others] at done
        cases done
      | some later =>
        rw [one, others] at done
        cases done
        obtain ⟨forth, back⟩ := ih others
        constructor
        · intro item member
          rcases List.mem_cons.mp member with rfl | member
          · exact ⟨result, List.mem_cons_self, one⟩
          · obtain ⟨found, there, same⟩ := forth item member
            exact ⟨found, List.mem_cons_of_mem _ there, same⟩
        · intro found member
          rcases List.mem_cons.mp member with rfl | member
          · exact ⟨first, List.mem_cons_self, one⟩
          · obtain ⟨item, there, same⟩ := back found member
            exact ⟨item, List.mem_cons_of_mem _ there, same⟩

theorem mapM_ends {Item Result : Type} {f : Nat → Item → Option Result}
    (ends : ∀ item, ∃ enough, ∀ turns, enough ≤ turns → ∃ result, f turns item = some result) (list : List Item) :
    ∃ enough, ∀ turns, enough ≤ turns → ∃ results, list.mapM (f turns) = some results := by
  induction list with
  | nil => exact ⟨0, fun _ _ => ⟨_, List.mapM_nil⟩⟩
  | cons first rest ih =>
    obtain ⟨few, one⟩ := ends first
    obtain ⟨more, others⟩ := ih
    refine ⟨max few more, fun turns enough => ?_⟩
    obtain ⟨result, same⟩ := one turns (by omega)
    obtain ⟨results, also⟩ := others turns (by omega)
    rw [List.mapM_cons, same, also]
    exact ⟨_, rfl⟩

section Parser

variable {ptr : Pointers} {dbg : Option LogLevels} {seqnumPrev datalen : Nat} {mem : Memory}

/-- What is left to split after the headers of a message. -/
def splitStart (datalen : Nat) : Splitting :=
  ⟨datalen - 24, [], [.shrink datalen 16, .read 4 4, .read 16 8, .shrink (datalen - 16) 8]⟩

theorem splitStart_sound (least : 24 ≤ datalen) : Sound mem datalen (splitStart datalen) := by
  refine ⟨?_, ?_, fun _ member => absurd member List.not_mem_nil, fun _ entry => entry⟩
  · unfold splitStart
    dsimp only
    omega
  · simp only [splitStart, List.mem_cons, List.not_mem_nil, or_false]
    rintro access (rfl | rfl | rfl | rfl)
    · unfold Access.Within
      omega
    · unfold Access.Within
      omega
    · unfold Access.Within
      omega
    · unfold Access.Within
      omega

theorem parser_splits (least : 24 ≤ datalen) (small : datalen < 2 ^ 32) (turns : Nat) (heap : Heap)
    (fresh : seqchkFails seqnumPrev (mem.ntoh32 4) = false) :
    dhdDbgMsgtraceLogParser ptr turns heap dbg seqnumPrev mem datalen = (do
      let split ← loopFor (splitTurn mem heap) turns (splitStart datalen)
      let handled ← split.list.mapM (handleItem ptr turns mem heap dbg)
      return split.log ++ handled.flatten) := by
  have first : minus datalen msgtraceHdrlen = datalen - 16 := minus_of_le (by unfold msgtraceHdrlen; omega) small
  have second : minus (datalen - 16) 8 = datalen - 24 := by
    rw [minus_of_le (by omega) (by omega)]
    omega
  unfold dhdDbgMsgtraceLogParser
  simp only [fresh, Bool.false_eq_true, if_false, first, second]
  rfl

/-- A parse that stays inside with every allocation, and pointers in front of the payload
buffers, has come to quiet entries only. -/
theorem quiet_of_safe (least : 24 ≤ datalen) (small : datalen < 2 ^ 32)
    (safe : SafeParse ptr dbg seqnumPrev mem datalen) (fresh : seqchkFails seqnumPrev (mem.ntoh32 4) = false)
    {hdr : Int} (entry : Entry mem (datalen - 24) hdr) : Quiet mem dbg hdr := by
  obtain ⟨turns, log, done, within⟩ := safe ⟨fun _ => true, fun _ => some (-1), fun _ => true⟩
  rw [parser_splits least small turns _ fresh] at done
  cases all : loopFor (splitTurn mem ⟨fun _ => true, fun _ => some (-1), fun _ => true⟩) turns (splitStart datalen) with
  | none =>
    simp only [all] at done
    cases done
  | some split =>
    cases items : split.list.mapM (handleItem ptr turns mem ⟨fun _ => true, fun _ => some (-1), fun _ => true⟩ dbg) with
    | none =>
      simp only [all, Option.bind_eq_bind, Option.bind_some, items] at done
      cases done
    | some handled =>
      simp only [all, items, Option.bind_eq_bind, Option.bind_some, Option.pure_def, Option.some.injEq] at done
      subst done
      have listed := split_complete (splitStart_sound least) small (fun _ => rfl) all hdr (Or.inr entry)
      obtain ⟨accesses, member, one⟩ := (mapM_each items).1 hdr listed
      have placed : Placed mem datalen hdr (hdr - 4 * hdrCount mem hdr) := entry.placed (by omega)
      apply handleItem_quiet placed rfl one
      intro access read
      exact within access (List.mem_append_right _ (List.mem_flatten_of_mem member read))

theorem safe_of_quiet (least : 24 ≤ datalen) (small : datalen < 2 ^ 32)
    (quiet : seqchkFails seqnumPrev (mem.ntoh32 4) = false →
      ∀ hdr, Entry mem (datalen - 24) hdr → Quiet mem dbg hdr) :
    SafeParse ptr dbg seqnumPrev mem datalen := by
  intro heap
  cases fresh : seqchkFails seqnumPrev (mem.ntoh32 4) with
  | true =>
    refine ⟨0, [.shrink datalen msgtraceHdrlen, .read 4 4], ?_, ?_⟩
    · unfold dhdDbgMsgtraceLogParser
      simp only [fresh, if_true]
    · simp only [List.mem_cons, List.not_mem_nil, or_false]
      rintro access (rfl | rfl)
      · unfold Access.Within msgtraceHdrlen
        omega
      · unfold Access.Within
        omega
  | false =>
    obtain ⟨few, split, done⟩ := split_ends (splitStart_sound least) small heap
    have sound : Sound mem datalen split := split_sound (splitStart_sound least) small done
    obtain ⟨more, items⟩ := mapM_ends (f := fun turns => handleItem ptr turns mem heap dbg)
      (handleItem_ends ptr mem heap dbg) split.list
    obtain ⟨handled, also⟩ := items (max few more) (by omega)
    refine ⟨max few more, split.log ++ handled.flatten, ?_, ?_⟩
    · rw [parser_splits least small _ heap fresh, Loop.loopFor_mono done (Nat.le_max_left few more)]
      simp only [Option.bind_eq_bind, Option.bind_some, also, Option.pure_def]
    · intro access member
      rcases List.mem_append.mp member with own | other
      · exact sound.log access own
      · obtain ⟨accesses, there, read⟩ := List.mem_flatten.mp other
        obtain ⟨hdr, listed, one⟩ := (mapM_each also).2 accesses there
        have entry := sound.list hdr listed
        exact handleItem_within (entry.placed (by omega)) (quiet fresh hdr entry) one access read

end Parser

/-- The parser is safe exactly for messages that it drops as known, or whose entries for the
handlers all have a time stamp inside the message, two words at least and no value to copy. -/
theorem safeParse_iff (ptr : Pointers) (dbg : Option LogLevels) (seqnumPrev : Nat) (mem : Memory) (datalen : Nat)
    (least : 24 ≤ datalen) (small : datalen < 2 ^ 32) :
    SafeParse ptr dbg seqnumPrev mem datalen ↔
      (seqchkFails seqnumPrev (mem.ntoh32 4) = false →
        ∀ hdr, Entry mem (datalen - 24) hdr → Quiet mem dbg hdr) :=
  ⟨fun safe fresh _ entry => quiet_of_safe least small safe fresh entry, safe_of_quiet least small⟩

def ofBytes (bytes : List UInt8) : Memory := fun place => if place < 0 then 0 else bytes.getD place.toNat 0

/-- The headers of a message, with its sequence number. -/
def headers (seqnum : UInt8) : List UInt8 :=
  [1, 1, 0, 0, 0, 0, 0, seqnum, 0, 0, 0, 0, 0, 0, 0, 0, 0, 0, 0, 0, 0, 0, 0, 0]

/-- An authentication event without values, and no time stamp in front. -/
def bareEvent : Memory := ofBytes (headers 1 ++ [3, 0, 0, 1, 7, 7, 7, 7, 104, 2, 0, 0])

theorem bareEvent_entry {hdr : Int} (entry : Entry bareEvent 12 hdr) : hdr = 32 := by
  rcases (entry_iff.mp entry).2 with found | later
  · exact found.2.2.2
  · exact absurd (entry_iff.mp later).1 (by decide)

theorem safeParse_bareEvent : SafeParse .lp64 (some ⟨1, 2⟩) 0 bareEvent 36 := by
  apply (safeParse_iff .lp64 (some ⟨1, 2⟩) 0 bareEvent 36 (by decide) (by decide)).mpr
  rintro - hdr entry levels same
  cases same
  cases bareEvent_entry entry
  refine ⟨?_, fun _ _ => ⟨fun stamp => absurd stamp (by decide), fun _ _ => ⟨by decide, fun comes => ?_⟩⟩⟩
  · rintro ⟨-, level, -, listed⟩
    exact absurd (by decide) (nanLevel_not_event listed)
  · cases comes with
    | here found => exact absurd found.inside (by decide)
    | later stepped comes => exact absurd (tlvStep_fits stepped).1 (by decide)

/-- An authentication event with a value that claims 65535 bytes. -/
def overlongValue : Memory := ofBytes (headers 1 ++ [3, 0, 0, 1, 1, 0, 255, 255, 7, 7, 7, 7, 104, 3, 0, 0])

/-- Its header is found in the four bytes that the values have. -/
example : (eventGetTlv .ilp32 2 overlongValue 1 28 4).map Prod.fst = some (some 28) ∧
    overlongValue.u16 (28 + 2) = 65535 := by decide

/-- The value is found and copied. -/
theorem overlongValue_unsafe : ¬SafeParse .ilp32 (some ⟨1, 2⟩) 0 overlongValue 40 := by
  intro safe
  have entry : Entry overlongValue 16 36 := .here ⟨by decide, by decide, by decide, by decide⟩
  have quiet := quiet_of_safe (by decide) (by decide) safe (by decide) entry
  obtain ⟨-, values⟩ := (quiet ⟨1, 2⟩ rfl).2 (by decide) (by decide)
  exact (values (by decide) (by decide)).2 (.here ⟨by decide, by decide⟩)

end BcmDhd.EventLog
