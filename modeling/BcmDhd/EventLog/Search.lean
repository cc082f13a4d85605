import BcmDhd.EventLog.Parser

namespace BcmDhd.EventLog

open Lib

/-- An access stays where it should. -/
def Access.Within (datalen : Nat) : Access → Prop
  | .read place len => 0 ≤ place ∧ place + len ≤ datalen
  | .shrink left amount => amount ≤ left
  | .found tlvs tlvsLen tlv len => tlvs ≤ tlv ∧ tlv + 4 + len ≤ tlvs + tlvsLen
  | .copy payloadLen dest len => 0 ≤ dest ∧ dest + len ≤ payloadLen
  | .payload payloadLen place len => 0 ≤ place ∧ place + len ≤ payloadLen

section Values

variable (mem : Memory) (finish : Int)

/-- From the header of one value to the next. -/
def tlvStep (pos : Int) : Option Int :=
  if pos + 1 < finish ∧ pos + 4 + mem.u8 (pos + 1) ≤ finish then
    some (pos + 4 + mem.u16 (pos + 2) + (mem.u16 (pos + 2) % 4 : Nat))
  else none

/-- A value's header is there, with one of these tags. -/
def IsTlv (ids : List Nat) (pos : Int) : Prop :=
  pos + 4 + mem.u8 (pos + 1) ≤ finish ∧ mem.u16 pos ∈ ids

/-- A header that is looked at stands behind the message. -/
def Outside (datalen : Nat) (pos : Int) : Prop :=
  pos + 1 < finish ∧
    ((datalen : Int) < pos + 2 ∨ pos + 4 + mem.u8 (pos + 1) ≤ finish ∧ (datalen : Int) < pos + 4)

end Values

section Search

variable {mem : Memory} {id : Nat} {ids : List Nat} {finish pos : Int} {log : List Access} {datalen turns : Nat}
  {got : Option Int × List Access}

theorem IsTlv.inside (tlv : IsTlv mem finish ids pos) : pos + 1 < finish := by
  have fits := tlv.1
  omega

/-- Every turn of a search is one of four. -/
inductive SearchTurn (mem : Memory) (id : Nat) (finish pos : Int) (log : List Access) : Prop
  | again (next : Int) (here : pos + 1 < finish) (fits : pos + 4 + mem.u8 (pos + 1) ≤ finish)
      (other : mem.u16 pos ≠ id) (step : tlvStep mem finish pos = some next) (less : pos < next)
      (turn : eventGetTlvTurn mem id finish (pos, log) =
        .again (next, log ++ [.read (pos + 1) 1] ++ [.read pos 2] ++ [.read (pos + 2) 2]))
  | found (here : pos + 1 < finish) (fits : pos + 4 + mem.u8 (pos + 1) ≤ finish) (same : mem.u16 pos = id)
      (turn : eventGetTlvTurn mem id finish (pos, log) =
        .leave (some pos, log ++ [.read (pos + 1) 1] ++ [.read pos 2]))
  | broken (here : pos + 1 < finish) (over_ : finish < pos + 4 + mem.u8 (pos + 1))
      (turn : eventGetTlvTurn mem id finish (pos, log) = .leave (none, log ++ [.read (pos + 1) 1]))
  | done (there : ¬pos + 1 < finish) (turn : eventGetTlvTurn mem id finish (pos, log) = .leave (none, log))

theorem searchTurn (mem : Memory) (id : Nat) (finish pos : Int) (log : List Access) :
    SearchTurn mem id finish pos log := by
  by_cases here : pos + 1 < finish
  · by_cases fits : pos + 4 + mem.u8 (pos + 1) ≤ finish
    · have whole : ¬finish < pos + 4 + mem.u8 (pos + 1) := not_lt.mpr fits
      by_cases same : mem.u16 pos = id
      · refine .found here fits same ?_
        simp only [eventGetTlvTurn, if_pos here, if_neg whole, if_pos same]
      · refine .again _ here fits same (if_pos ⟨here, fits⟩) (by omega) ?_
        simp only [eventGetTlvTurn, if_pos here, if_neg whole, if_neg same, Nat.cast_ofNat, Int.natCast_mod]
    · have broken : finish < pos + 4 + mem.u8 (pos + 1) := not_le.mp fits
      refine .broken here broken ?_
      simp only [eventGetTlvTurn, if_pos here, if_pos broken]
  · refine .done here ?_
    simp only [eventGetTlvTurn, if_neg here]

theorem tlvStep_fits {next : Int} (stepped : tlvStep mem finish pos = some next) :
    pos + 1 < finish ∧ pos + 4 + mem.u8 (pos + 1) ≤ finish := by
  unfold tlvStep at stepped
  split at stepped
  · assumption
  · cases stepped

theorem search_ends (mem : Memory) (id : Nat) (finish pos : Int) (log : List Access) :
    ∃ turns got, loopFor (eventGetTlvTurn mem id finish) turns (pos, log) = some got := by
  have less : ∀ scan next, True → eventGetTlvTurn mem id finish scan = .again next →
      True ∧ (finish - next.1).toNat < (finish - scan.1).toNat := by
    intro scan next _ goesOn
    refine ⟨trivial, ?_⟩
    cases searchTurn mem id finish scan.1 scan.2 with
    | again after here fits other step less turn =>
      cases goesOn.symm.trans turn
      dsimp only
      omega
    | found here fits same turn => cases goesOn.symm.trans turn
    | broken here over_ turn => cases goesOn.symm.trans turn
    | done there turn => cases goesOn.symm.trans turn
  obtain ⟨got, done⟩ := Loop.leaves_of_measure (eventGetTlvTurn mem id finish) (fun _ => True)
    (fun scan => (finish - scan.1).toNat) less (pos, log) trivial
  exact ⟨_, got, done⟩

theorem search_some {tlv : Int} {after : List Access}
    (done : loopFor (eventGetTlvTurn mem id finish) turns (pos, log) = some (some tlv, after)) :
    Comes (tlvStep mem finish) (IsTlv mem finish [id]) pos := by
  induction turns generalizing pos log with
  | zero => cases done
  | succ turns ih =>
    cases searchTurn mem id finish pos log with
    | again next here fits other step less turn =>
      rw [Loop.loopFor_again turn] at done
      exact .later step (ih done)
    | found here fits same turn => exact .here ⟨fits, List.mem_singleton.mpr same⟩
    | broken here over_ turn =>
      rw [Loop.loopFor_leave turn] at done
      cases done
    | done there turn =>
      rw [Loop.loopFor_leave turn] at done
      cases done

/-- A search that finds nothing has gone through all of the split; what it has read tells that
the split does not leave the message. -/
theorem search_none {after : List Access}
    (done : loopFor (eventGetTlvTurn mem id finish) turns (pos, log) = some (none, after)) :
    ¬Comes (tlvStep mem finish) (IsTlv mem finish [id]) pos ∧
      ((∀ access ∈ after, access.Within datalen) →
        (∀ access ∈ log, access.Within datalen) ∧ ¬Comes (tlvStep mem finish) (Outside mem finish datalen) pos) := by
  induction turns generalizing pos log with
  | zero => cases done
  | succ turns ih =>
    cases searchTurn mem id finish pos log with
    | again next here fits other step less turn =>
      rw [Loop.loopFor_again turn] at done
      obtain ⟨never, inside⟩ := ih done
      refine ⟨?_, ?_⟩
      · intro comes
        cases comes with
        | here found => exact other (List.mem_singleton.mp found.2)
        | later stepped comes =>
          cases step.symm.trans stepped
          exact never comes
      · intro within
        obtain ⟨logged, stays⟩ := inside within
        refine ⟨fun access member => logged access (by simp [member]), fun comes => ?_⟩
        cases comes with
        | here left =>
          have upper : Access.Within datalen (.read (pos + 1) 1) := logged _ (by simp)
          have length : Access.Within datalen (.read (pos + 2) 2) := logged _ (by simp)
          unfold Access.Within at upper length
          have out := left.2
          push_cast at *
          omega
        | later stepped comes =>
          cases step.symm.trans stepped
          exact stays comes
    | found here fits same turn =>
      rw [Loop.loopFor_leave turn] at done
      cases done
    | broken here over_ turn =>
      rw [Loop.loopFor_leave turn] at done
      cases done
      refine ⟨?_, fun within => ⟨fun access member => within access (by simp [member]), ?_⟩⟩
      · intro comes
        cases comes with
        | here found => exact absurd found.1 (not_le.mpr over_)
        | later stepped comes => exact absurd (tlvStep_fits stepped).2 (not_le.mpr over_)
      · intro comes
        cases comes with
        | here left =>
          have upper : Access.Within datalen (.read (pos + 1) 1) := within _ (by simp)
          unfold Access.Within at upper
          have out := left.2
          push_cast at *
          omega
        | later stepped comes => exact absurd (tlvStep_fits stepped).2 (not_le.mpr over_)
    | done there turn =>
      rw [Loop.loopFor_leave turn] at done
      cases done
      refine ⟨?_, fun within => ⟨within, ?_⟩⟩
      · intro comes
        cases comes with
        | here found => exact there found.inside
        | later stepped comes => exact there (tlvStep_fits stepped).1
      · intro comes
        cases comes with
        | here left => exact there left.1
        | later stepped comes => exact there (tlvStep_fits stepped).1

/-- A search reads inside the message where the split does not leave it. -/
theorem search_within (start : 0 ≤ pos) (logged : ∀ access ∈ log, access.Within datalen)
    (inside : ¬Comes (tlvStep mem finish) (Outside mem finish datalen) pos)
    (done : loopFor (eventGetTlvTurn mem id finish) turns (pos, log) = some got) :
    ∀ access ∈ got.2, access.Within datalen := by
  have here_ : ∀ pos, 0 ≤ pos → pos + 1 < finish → ¬Comes (tlvStep mem finish) (Outside mem finish datalen) pos →
      Access.Within datalen (.read (pos + 1) 1) ∧ (pos + 4 + mem.u8 (pos + 1) ≤ finish →
        Access.Within datalen (.read pos 2) ∧ Access.Within datalen (.read (pos + 2) 2)) := by
    intro pos start here inside
    have stays : ¬Outside mem finish datalen pos := fun left => inside (.here left)
    unfold Outside at stays
    unfold Access.Within
    push_cast
    omega
  have kept : ∀ scan next : Int × List Access,
      (0 ≤ scan.1 ∧ (∀ access ∈ scan.2, access.Within datalen) ∧
        ¬Comes (tlvStep mem finish) (Outside mem finish datalen) scan.1) →
      eventGetTlvTurn mem id finish scan = .again next →
      0 ≤ next.1 ∧ (∀ access ∈ next.2, access.Within datalen) ∧
        ¬Comes (tlvStep mem finish) (Outside mem finish datalen) next.1 := by
    intro scan next held goesOn
    obtain ⟨start, logged, inside⟩ := held
    cases searchTurn mem id finish scan.1 scan.2 with
    | again after here fits other step less turn =>
      cases goesOn.symm.trans turn
      obtain ⟨upper, both⟩ := here_ scan.1 start here inside
      refine ⟨by omega, ?_, fun comes => inside (.later step comes)⟩
      simp only [List.mem_append, List.mem_singleton]
      rintro access (((member | rfl) | rfl) | rfl)
      · exact logged access member
      · exact upper
      · exact (both fits).1
      · exact (both fits).2
    | found here fits same turn => cases goesOn.symm.trans turn
    | broken here over_ turn => cases goesOn.symm.trans turn
    | done there turn => cases goesOn.symm.trans turn
  have ends : ∀ (scan : Int × List Access) (result : Option Int × List Access),
      (0 ≤ scan.1 ∧ (∀ access ∈ scan.2, access.Within datalen) ∧
        ¬Comes (tlvStep mem finish) (Outside mem finish datalen) scan.1) →
      eventGetTlvTurn mem id finish scan = .leave result → ∀ access ∈ result.2, access.Within datalen := by
    intro scan result held left
    obtain ⟨start, logged, inside⟩ := held
    cases searchTurn mem id finish scan.1 scan.2 with
    | again after here fits other step less turn => cases left.symm.trans turn
    | found here fits same turn =>
      cases left.symm.trans turn
      obtain ⟨upper, both⟩ := here_ scan.1 start here inside
      simp only [List.mem_append, List.mem_singleton]
      rintro access ((member | rfl) | rfl)
      · exact logged access member
      · exact upper
      · exact (both fits).1
    | broken here over_ turn =>
      cases left.symm.trans turn
      simp only [List.mem_append, List.mem_singleton]
      rintro access (member | rfl)
      · exact logged access member
      · exact (here_ scan.1 start here inside).1
    | done there turn =>
      cases left.symm.trans turn
      exact logged
  have held := Loop.loopFor_invariant kept ends ⟨start, logged, inside⟩ done
  exact held

end Search

section Copies

variable {ptr : Pointers} {mem : Memory} {tlvs tlvLen payloadLen dest : Int} {ids : List Nat} {turns datalen : Nat}
  {total : Nat} {copied : Nat × List Access}

theorem IsTlv.one {finish pos : Int} (tlv : IsTlv mem finish ids pos) :
    ∃ id ∈ ids, IsTlv mem finish [id] pos :=
  ⟨mem.u16 pos, tlv.2, tlv.1, List.mem_singleton.mpr rfl⟩

theorem comes_one {finish pos : Int} (comes : Comes (tlvStep mem finish) (IsTlv mem finish ids) pos) :
    ∃ id ∈ ids, Comes (tlvStep mem finish) (IsTlv mem finish [id]) pos := by
  induction comes with
  | here found =>
    obtain ⟨id, member, tlv⟩ := found.one
    exact ⟨id, member, .here tlv⟩
  | later stepped comes ih =>
    obtain ⟨id, member, later⟩ := ih
    exact ⟨id, member, .later stepped later⟩

theorem comes_any {finish pos : Int} {id : Nat} (member : id ∈ ids)
    (comes : Comes (tlvStep mem finish) (IsTlv mem finish [id]) pos) :
    Comes (tlvStep mem finish) (IsTlv mem finish ids) pos := by
  induction comes with
  | here found =>
    obtain ⟨fits, same⟩ := found
    cases List.mem_singleton.mp same
    exact .here ⟨fits, member⟩
  | later stepped comes ih => exact .later stepped ih

theorem copyTlvs_ends (ptr : Pointers) (mem : Memory) (tlvs tlvLen payloadLen : Int) (ids : List Nat) :
    ∃ enough, ∀ turns, enough ≤ turns → ∀ dest total, ∃ copied,
      copyTlvs ptr turns mem tlvs tlvLen payloadLen ids dest total = some copied := by
  induction ids with
  | nil => exact ⟨0, fun _ _ _ _ => ⟨_, rfl⟩⟩
  | cons id ids ih =>
    obtain ⟨few, later⟩ := ih
    obtain ⟨more, got, done⟩ := search_ends mem id (tlvsEnd ptr tlvs tlvLen) tlvs []
    refine ⟨max few more, fun turns enough dest total => ?_⟩
    have ended : eventGetTlv ptr turns mem id tlvs tlvLen = some got := Loop.loopFor_mono done (by omega)
    unfold copyTlvs
    simp only [ended, Option.bind_eq_bind, Option.bind_some, Option.pure_def]
    cases got.1 with
    | none =>
      obtain ⟨copied, rest⟩ := later turns (by omega) dest total
      exact ⟨_, by rw [rest]; rfl⟩
    | some tlv =>
      obtain ⟨copied, rest⟩ := later turns (by omega) (dest + (mem.u16 (tlv + 2) + ptr.sizeofTlvLog))
        ((total + (mem.u16 (tlv + 2) + ptr.sizeofTlvLog)) % 2 ^ 16)
      exact ⟨_, by simp only [rest]; rfl⟩

/-- Where there is nothing to find the handlers read inside the message and copy nothing. -/
theorem copyTlvs_within (start : 0 ≤ tlvs)
    (none_ : ¬Comes (tlvStep mem (tlvsEnd ptr tlvs tlvLen))
      (fun pos => Outside mem (tlvsEnd ptr tlvs tlvLen) datalen pos ∨
      IsTlv mem (tlvsEnd ptr tlvs tlvLen) ids pos) tlvs)
    (done : copyTlvs ptr turns mem tlvs tlvLen payloadLen ids dest total = some copied) :
    copied.1 = total ∧ ∀ access ∈ copied.2, access.Within datalen := by
  obtain ⟨inside, absent⟩ := not_or.mp (none_ ∘ Comes.or_iff.mpr)
  clear none_
  induction ids generalizing copied with
  | nil =>
    cases done
    exact ⟨rfl, fun _ member => absurd member List.not_mem_nil⟩
  | cons id ids ih =>
    unfold copyTlvs at done
    cases one : eventGetTlv ptr turns mem id tlvs tlvLen with
    | none =>
      rw [one] at done
      cases done
    | some got =>
      obtain ⟨found, reads⟩ := got
      simp only [one, Option.bind_eq_bind, Option.bind_some, Option.pure_def] at done
      cases found with
      | some tlv => exact absurd (comes_any List.mem_cons_self (search_some one)) absent
      | none =>
        cases rest : copyTlvs ptr turns mem tlvs tlvLen payloadLen ids dest total with
        | none =>
          simp only [rest] at done
          cases done
        | some later =>
          simp only [rest, Option.bind_some, Option.some.injEq] at done
          subst done
          have first := search_within start (fun _ member => absurd member List.not_mem_nil) inside one
          have later_ : ¬Comes (tlvStep mem (tlvsEnd ptr tlvs tlvLen))
              (IsTlv mem (tlvsEnd ptr tlvs tlvLen) ids) tlvs := by
            intro comes
            obtain ⟨other, member, comes⟩ := comes_one comes
            exact absent (comes_any (List.mem_cons_of_mem _ member) comes)
          have others := ih rest later_
          refine ⟨others.1, fun access member => ?_⟩
          rcases List.mem_append.mp member with read | read
          · exact first access read
          · exact others.2 access read

/-- A handler that copies to a place in front of its buffer, and yet stays inside, has found
nothing. -/
theorem copyTlvs_none (some_ : ids ≠ [])
    (done : copyTlvs ptr turns mem tlvs tlvLen payloadLen ids (-1) total = some copied)
    (within : ∀ access ∈ copied.2, access.Within datalen) :
    ¬Comes (tlvStep mem (tlvsEnd ptr tlvs tlvLen)) (fun pos => Outside mem (tlvsEnd ptr tlvs tlvLen) datalen pos ∨
      IsTlv mem (tlvsEnd ptr tlvs tlvLen) ids pos) tlvs := by
  suffices (∀ id ∈ ids, ¬Comes (tlvStep mem (tlvsEnd ptr tlvs tlvLen))
      (fun pos => Outside mem (tlvsEnd ptr tlvs tlvLen) datalen pos ∨ IsTlv mem (tlvsEnd ptr tlvs tlvLen) [id] pos)
      tlvs) by
    intro comes
    rcases Comes.or_iff.mp comes with leaves | found
    · obtain ⟨id, member⟩ := List.exists_mem_of_ne_nil ids some_
      exact this id member (Comes.or_iff.mpr (Or.inl leaves))
    · obtain ⟨id, member, found⟩ := comes_one found
      exact this id member (Comes.or_iff.mpr (Or.inr found))
  clear some_
  induction ids generalizing copied with
  | nil => exact fun _ member => absurd member List.not_mem_nil
  | cons id ids ih =>
    unfold copyTlvs at done
    cases one : eventGetTlv ptr turns mem id tlvs tlvLen with
    | none =>
      rw [one] at done
      cases done
    | some got =>
      obtain ⟨found, reads⟩ := got
      simp only [one, Option.bind_eq_bind, Option.bind_some, Option.pure_def] at done
      cases found with
      | some tlv =>
        cases rest : copyTlvs ptr turns mem tlvs tlvLen payloadLen ids
            (-1 + (mem.u16 (tlv + 2) + ptr.sizeofTlvLog))
            ((total + (mem.u16 (tlv + 2) + ptr.sizeofTlvLog)) % 2 ^ 16) with
        | none =>
          simp only [rest] at done
          cases done
        | some later =>
          simp only [rest, Option.bind_some, Option.some.injEq] at done
          subst done
          have there : Access.Within datalen (.copy payloadLen (-1) (ptr.sizeofTlvLog + mem.u16 (tlv + 2))) :=
            within _ (by simp)
          exact absurd there.1 (by decide)
      | none =>
        cases rest : copyTlvs ptr turns mem tlvs tlvLen payloadLen ids (-1) total with
        | none =>
          simp only [rest] at done
          cases done
        | some later =>
          simp only [rest, Option.bind_some, Option.some.injEq] at done
          subst done
          obtain ⟨absent, inside⟩ := search_none one
          have first := (inside fun access member => within access (List.mem_append_left _ member)).2
          have others := ih rest fun access member => within access (List.mem_append_right _ member)
          intro other member
          rcases List.mem_cons.mp member with rfl | member
          · exact fun comes => (Comes.or_iff.mp comes).elim first absent
          · exact others other member

end Copies

end BcmDhd.EventLog
