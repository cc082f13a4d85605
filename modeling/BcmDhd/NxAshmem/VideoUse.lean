import BcmDhd.NxAshmem.BlockLifetime

namespace BcmDhd.NxAshmem

open BcmDhd.Lib

/-- Among open files, those whose area has such a marker now. -/
def Ashmem.markedFiles (s : Ashmem) (kind : UInt32 → Bool) : Nat := s.files.countP fun a => kind (s.area a).marker

/-- The counters are right, and the alternate heaps can be used once no file needs video. -/
structure VideoCounted (s : Ashmem) : Prop where
  video : s.videoInUse = s.markedFiles isVideo
  secure : s.videoSecureInUse = s.markedFiles isSecureVideo
  alternate : (∀ a ∈ s.files, isVideo (s.area a).marker = false ∧ isSecureVideo (s.area a).marker = false) →
    ∀ nexus currentMain, s.mgrCfg.altUseThreshold < currentMain →
      nxAshmemAllocateFromAlternate s nexus currentMain = altIndex s nexus

/-- An area that is marked for video is given a size, and with it a marker, again. -/
def MarksAgain (s : Ashmem) : AshmemCall → Prop
  | .setSize a (some _) => (s.area a).pAddress = 0 ∧
      (isVideo (s.area a).marker = true ∨ isSecureVideo (s.area a).marker = true)
  | _ => False

section

variable {s after : Ashmem} {a : AreaPtr} {kind : UInt32 → Bool}

theorem videoCounted_iff : VideoCounted s ↔
    s.videoInUse = s.markedFiles isVideo ∧ s.videoSecureInUse = s.markedFiles isSecureVideo := by
  constructor
  · intro counted
    exact ⟨counted.video, counted.secure⟩
  · intro counted
    obtain ⟨video, secure⟩ := counted
    refine ⟨video, secure, fun unmarked nexus currentMain above => ?_⟩
    have noVideo : s.markedFiles isVideo = 0 :=
      List.countP_eq_zero.mpr fun a member => by simp [(unmarked a member).1]
    have noSecure : s.markedFiles isSecureVideo = 0 :=
      List.countP_eq_zero.mpr fun a member => by simp [(unmarked a member).2]
    rw [noVideo] at video
    rw [noSecure] at secure
    have idle : ¬(s.videoInUse ≠ 0 ∨ s.videoSecureInUse ≠ 0) := fun either => either.elim (· video) (· secure)
    unfold nxAshmemAllocateFromAlternate
    rw [if_neg idle, if_pos above]

theorem not_secure_of_video {marker : UInt32} (video : isVideo marker = true) : isSecureVideo marker = false := by
  unfold isVideo at video
  rcases Bool.or_eq_true_iff.mp video with decoder | encoder
  · rw [of_decide_eq_true decoder]
    decide
  · rw [of_decide_eq_true encoder]
    decide

/-- What a marker adds to a counter. -/
def weight (kind : UInt32 → Bool) (marker : UInt32) : Nat := if kind marker then 1 else 0

theorem processMarker_add (s : Ashmem) (marker : UInt32) :
    (nxAshmemProcessMarker s marker true).videoInUse = s.videoInUse + weight isVideo marker ∧
      (nxAshmemProcessMarker s marker true).videoSecureInUse =
        s.videoSecureInUse + weight isSecureVideo marker := by
  unfold nxAshmemProcessMarker weight
  by_cases video : isVideo marker = true
  · simp [video, not_secure_of_video video]
  · by_cases secure : isSecureVideo marker = true
    · simp [video, secure]
    · simp [video, secure]

theorem processMarker_remove (s : Ashmem) (marker : UInt32) (video : weight isVideo marker ≤ s.videoInUse)
    (secure : weight isSecureVideo marker ≤ s.videoSecureInUse) :
    (nxAshmemProcessMarker s marker false).videoInUse = s.videoInUse - weight isVideo marker ∧
      (nxAshmemProcessMarker s marker false).videoSecureInUse =
        s.videoSecureInUse - weight isSecureVideo marker := by
  unfold nxAshmemProcessMarker
  unfold weight at video secure ⊢
  by_cases isV : isVideo marker = true
  · have other := not_secure_of_video isV
    simp only [isV, if_true, other] at video ⊢
    have counter : countDown s.videoInUse = s.videoInUse - 1 := if_neg (by omega)
    simp [counter]
  · by_cases isS : isSecureVideo marker = true
    · simp only [isV, isS, if_true] at secure ⊢
      have counter : countDown s.videoSecureInUse = s.videoSecureInUse - 1 := if_neg (by omega)
      simp [counter]
    · simp [isV, isS]

theorem markedFiles_setArea (unique : s.files.Nodup) (member : a ∈ s.files) (asma : Area) :
    (s.setArea a asma).markedFiles kind + weight kind (s.area a).marker =
      s.markedFiles kind + weight kind asma.marker := by
  have order := List.perm_cons_erase member
  have rest : (s.files.erase a).countP (fun b => kind ((s.setArea a asma).area b).marker) =
      (s.files.erase a).countP fun b => kind (s.area b).marker := by
    refine List.countP_congr fun b among => ?_
    rw [setArea_other (unique.mem_erase_iff.mp among).1]
  change s.files.countP (fun b => kind ((s.setArea a asma).area b).marker) + _ = _
  rw [Ashmem.markedFiles, order.countP_eq, order.countP_eq, List.countP_cons, List.countP_cons, rest, setArea_self]
  unfold weight
  omega

theorem markedFiles_erase (member : a ∈ s.files) :
    (s.files.erase a).countP (fun b => kind (s.area b).marker) + weight kind (s.area a).marker =
      s.markedFiles kind := by
  rw [Ashmem.markedFiles, (List.perm_cons_erase member).countP_eq, List.countP_cons, weight]

theorem markedFiles_congr (files : after.files = s.files)
    (marker : ∀ a ∈ s.files, (after.area a).marker = (s.area a).marker) :
    after.markedFiles kind = s.markedFiles kind := by
  unfold Ashmem.markedFiles
  rw [files]
  refine List.countP_congr fun a member => ?_
  rw [marker a member]

/-- Open files, their markers and both counters are the same. -/
structure SameVideo (s after : Ashmem) : Prop where
  files : after.files = s.files
  marker : ∀ a, (after.area a).marker = (s.area a).marker
  video : after.videoInUse = s.videoInUse
  secure : after.videoSecureInUse = s.videoSecureInUse

theorem VideoCounted.same (counted : VideoCounted s) (same : SameVideo s after) : VideoCounted after := by
  refine videoCounted_iff.mpr ⟨?_, ?_⟩
  · rw [same.video, counted.video, markedFiles_congr same.files fun a _ => same.marker a]
  · rw [same.secure, counted.secure, markedFiles_congr same.files fun a _ => same.marker a]

theorem SameVideo.trans {later : Ashmem} (first : SameVideo s after) (second : SameVideo after later) :
    SameVideo s later :=
  ⟨second.files.trans first.files, fun a => (second.marker a).trans (first.marker a),
    second.video.trans first.video, second.secure.trans first.secure⟩

theorem SameVideo.setArea {asma : Area} (marker : asma.marker = (s.area a).marker) (nexus : LockedBlocks Handle) :
    SameVideo s { s.setArea a asma with nexus := nexus } := by
  refine ⟨rfl, fun other => ?_, rfl, rfl⟩
  change ((s.setArea a asma).area other).marker = _
  by_cases here : other = a
  · rw [here, setArea_self, marker]
  · rw [setArea_other here]

theorem SameVideo.freeBlock : SameVideo s (nxAshmemAsmaFreeBlock s a) := by
  unfold nxAshmemAsmaFreeBlock
  dsimp only
  split
  · exact ⟨rfl, fun _ => rfl, rfl, rfl⟩
  split
  · exact SameVideo.setArea (by rfl) _
  · exact SameVideo.setArea (by rfl) _

theorem SameVideo.closeArea : SameVideo s (closeArea s a) := by
  rw [closeArea_eq]
  split
  · exact SameVideo.setArea (by rfl) s.nexus
  · exact SameVideo.freeBlock.trans ⟨rfl, fun _ => rfl, rfl, rfl⟩

theorem SameVideo.mmap (nexus : Nexus) : SameVideo s (nxAshmemMmap s a nexus).1 := by
  have unchanged : SameVideo s s := ⟨rfl, fun _ => rfl, rfl, rfl⟩
  unfold nxAshmemMmap
  dsimp only
  split
  · exact unchanged
  split
  · exact unchanged
  split
  · rw [placeBlock_eq]
    exact SameVideo.setArea (by rfl) _
  · exact unchanged

theorem SameVideo.extRefcnt (held : Held s) (hdl : Handle) (cnt : UInt32) :
    SameVideo s (nxAshmemProcessExtRefcnt s hdl cnt).1 := by
  rcases @extRefcnt_cases s hdl cnt held with ⟨same, _⟩ | ⟨a, _, _, _, step⟩
  · rw [same]
    exact ⟨rfl, fun _ => rfl, rfl, rfl⟩
  · rw [step]
    split
    · exact (SameVideo.setArea (by rfl) s.nexus).trans (SameVideo.freeBlock.trans ⟨rfl, fun _ => rfl, rfl, rfl⟩)
    · exact SameVideo.setArea (by rfl) s.nexus

theorem open_counts (owned : Owned s) (counted : VideoCounted s) (fresh : a ∉ s.cache) :
    VideoCounted (nxAshmemOpen s (some a)).1 := by
  have same : ∀ kind : UInt32 → Bool, kind 0 = false →
      (nxAshmemOpen s (some a)).1.markedFiles kind = s.markedFiles kind := by
    intro kind unmarked
    change (a :: s.files).countP (fun b => kind ((s.setArea a .zeroed).area b).marker) = _
    rw [List.countP_cons, setArea_self, if_neg (by simp [Area.zeroed, unmarked])]
    refine List.countP_congr fun b among => ?_
    have differs : b ≠ a := fun here => fresh (here ▸ owned.cached b (owned.opened b among).1)
    rw [setArea_other differs]
  refine videoCounted_iff.mpr ⟨?_, ?_⟩
  · rw [same isVideo (by decide)]
    exact counted.video
  · rw [same isSecureVideo (by decide)]
    exact counted.secure

theorem weight_eq_zero {marker : UInt32} : weight kind marker = 0 ↔ ¬kind marker = true := by
  unfold weight
  split
  · simp [*]
  · simp [*]

/-- A marker is counted with every size that is set, but never taken back for the next one. -/
theorem setSize_counts_iff (owned : Owned s) (counted : VideoCounted s) (member : a ∈ s.files)
    (alloc : Option NxAlloc) :
    VideoCounted (nxAshmemSetSize s a alloc).1 ↔ ¬MarksAgain s (.setSize a alloc) := by
  unfold nxAshmemSetSize
  dsimp only
  by_cases address : (s.area a).pAddress = 0
  · rw [if_neg (not_not.mpr address)]
    cases alloc with
    | none => exact iff_of_true counted id
    | some alloc =>
      dsimp only
      generalize sized : ({ s.area a with
        size := alloc.size, align := alloc.align, movable := alloc.movable, marker := alloc.marker
        heapWanted := alloc.heap } : Area) = asma
      have marker : asma.marker = alloc.marker := by rw [← sized]
      have after := processMarker_add (s.setArea a asma) alloc.marker
      have files := fun kind => @markedFiles_congr (s.setArea a asma)
        (nxAshmemProcessMarker (s.setArea a asma) alloc.marker true) kind SameAreas.processMarker.files
        fun b _ => by rw [SameAreas.processMarker.area]
      have video := @markedFiles_setArea s a isVideo owned.files member asma
      have secure := @markedFiles_setArea s a isSecureVideo owned.files member asma
      have counters : (s.setArea a asma).videoInUse = s.markedFiles isVideo ∧
          (s.setArea a asma).videoSecureInUse = s.markedFiles isSecureVideo := ⟨counted.video, counted.secure⟩
      have marked : MarksAgain s (.setSize a (some alloc)) ↔
          ¬(weight isVideo (s.area a).marker = 0 ∧ weight isSecureVideo (s.area a).marker = 0) := by
        rw [weight_eq_zero, weight_eq_zero, not_and_or, not_not, not_not]
        exact and_iff_right address
      rw [videoCounted_iff, marked, not_not, after.1, after.2, files, files, counters.1, counters.2]
      rw [marker] at video secure
      omega
  · rw [if_pos address]
    refine iff_of_true counted fun again => ?_
    cases alloc with
    | none => exact again
    | some alloc => exact address again.1

/-- Closing a file takes back what its marker added last. -/
theorem release_counts (counted : VideoCounted s) (member : a ∈ s.files) : VideoCounted (nxAshmemRelease s a) := by
  have closed : SameVideo { s with files := s.files.erase a } (closeArea { s with files := s.files.erase a } a) :=
    SameVideo.closeArea
  have left : ∀ kind : UInt32 → Bool, (closeArea { s with files := s.files.erase a } a).markedFiles kind +
      weight kind (s.area a).marker = s.markedFiles kind := by
    intro kind
    rw [markedFiles_congr closed.files fun b _ => closed.marker b]
    exact markedFiles_erase member
  have files : ∀ kind : UInt32 → Bool, (nxAshmemRelease s a).markedFiles kind =
      (closeArea { s with files := s.files.erase a } a).markedFiles kind := by
    intro kind
    unfold nxAshmemRelease
    dsimp only
    split
    · exact markedFiles_congr SameAreas.processMarker.files fun b _ => by rw [SameAreas.processMarker.area]
    · rfl
  have before : (closeArea { s with files := s.files.erase a } a).videoInUse = s.markedFiles isVideo ∧
      (closeArea { s with files := s.files.erase a } a).videoSecureInUse = s.markedFiles isSecureVideo :=
    ⟨closed.video.trans counted.video, closed.secure.trans counted.secure⟩
  have video := left isVideo
  have secure := left isSecureVideo
  have counters : (nxAshmemRelease s a).videoInUse =
        (closeArea { s with files := s.files.erase a } a).videoInUse - weight isVideo (s.area a).marker ∧
      (nxAshmemRelease s a).videoSecureInUse =
        (closeArea { s with files := s.files.erase a } a).videoSecureInUse - weight isSecureVideo
          (s.area a).marker := by
    unfold nxAshmemRelease
    dsimp only
    by_cases unmarked : (s.area a).marker = 0
    · rw [if_neg (not_not.mpr unmarked), unmarked, show weight isVideo 0 = 0 by decide,
        show weight isSecureVideo 0 = 0 by decide]
      omega
    · rw [if_pos unmarked]
      refine processMarker_remove _ _ ?_ ?_
      · rw [before.1]
        omega
      · rw [before.2]
        omega
  refine videoCounted_iff.mpr ⟨?_, ?_⟩
  · rw [counters.1, files, before.1]
    omega
  · rw [counters.2, files, before.2]
    omega

theorem call_counts_iff (owned : Owned s) (counted : VideoCounted s) (call : AshmemCall)
    (admitted : ashmem.admits s call) : VideoCounted (ashmem.next s call) ↔ ¬MarksAgain s call := by
  cases call with
  | openFile object =>
    refine iff_of_true ?_ id
    cases object with
    | none => exact counted
    | some a => exact open_counts owned counted admitted
  | setSize a alloc => exact setSize_counts_iff owned counted admitted alloc
  | getMem a nexus => exact iff_of_true (counted.same (SameVideo.mmap nexus)) id
  | extRefcnt hdl cnt => exact iff_of_true (counted.same (SameVideo.extRefcnt owned.toHeld hdl cnt)) id
  | dumpAll =>
    refine iff_of_true ?_ id
    change VideoCounted (nxAshmemDumpAll s)
    rw [dumpAll_eq owned.toHeld]
    exact counted
  | mgrCfg cfg altHeap => exact iff_of_true (counted.same ⟨rfl, fun _ => rfl, rfl, rfl⟩) id
  | release a => exact iff_of_true (release_counts counted admitted) id

end

/-- All along a run the counters of video in use are right, and so the alternate heaps can
be used once no file is marked for video, exactly if no file that is marked so is given a
size again. -/
theorem video_counted_iff (locked : Bool) (gfxHeap gfxFbHeap : Nat) (gfxHeapDyn : Bool) (calls : List AshmemCall)
    (admitted : ashmem.Admitted (ashmemStart locked gfxHeap gfxFbHeap gfxHeapDyn) calls) :
    let reached := ashmem.run (ashmemStart locked gfxHeap gfxFbHeap gfxHeapDyn)
    (∀ past rest, calls = past ++ rest → VideoCounted (reached past)) ↔
      ∀ past call rest, calls = past ++ call :: rest → ¬MarksAgain (reached past) call :=
  ashmem.always_iff ashmem_owned (fun _ call owned counted admitted => call_counts_iff owned counted call admitted)
    (ashmemStart_owned locked gfxHeap gfxFbHeap gfxHeapDyn) (videoCounted_iff.mpr ⟨rfl, rfl⟩) admitted

theorem video_counted_iff_outlived :
    (∀ past rest, outlivedFile = past ++ rest → VideoCounted (ashmem.run (ashmemStart true 0 1 true) past)) ↔
      ∀ past call rest, outlivedFile = past ++ call :: rest →
        ¬MarksAgain (ashmem.run (ashmemStart true 0 1 true) past) call :=
  video_counted_iff true 0 1 true outlivedFile outlivedFile_admitted

/-- A file that is marked for a decoder twice, and closed. -/
def markedTwice : List AshmemCall :=
  [.openFile (some 1), .setSize 1 (some ⟨4096, 0, 1, markerVideoDecoder, 0⟩),
    .setSize 1 (some ⟨8192, 0, 1, markerVideoDecoder, 0⟩), .release 1]

/-- No file is open any more, but video is in use, and no alternate heap is. -/
theorem marked_twice_stays :
    let s := ashmem.run (ashmemStart true 0 1 true) markedTwice
    ashmem.Admitted (ashmemStart true 0 1 true) markedTwice ∧ s.files = [] ∧ s.videoInUse = 1 ∧
      ¬VideoCounted s ∧
      ∀ nexus currentMain, nxAshmemAllocateFromAlternate s nexus currentMain = fun _ => false := by
  intro s
  have files : s.files = [] := by decide +kernel
  have video : s.videoInUse = 1 := by decide +kernel
  refine ⟨by decide +kernel, files, video, ?_, ?_⟩
  · intro counted
    have wrong := counted.video
    rw [video, Ashmem.markedFiles, files] at wrong
    exact absurd wrong (by decide)
  · intro nexus currentMain
    refine if_pos (Or.inl ?_)
    rw [video]
    decide

end BcmDhd.NxAshmem
