import BcmDhd.Lib.Ipv6Text
import BcmDhd.Lib.Loop
import BcmDhd.Utils.IpCksum

/-! IPv6 addresses as texts. -/

namespace BcmDhd.Utils

open BcmDhd.Lib BcmDhd.Lib.Ipv6

/-- The search for zeros: `cnt`, `cnt_max`, and `i_max`, where nothing stands for -1. -/
structure ZeroScan where
  cnt : Nat
  cntMax : Nat
  iMax : Option Nat

/-- In front of `i` some zeros end. -/
def ZeroScan.close (scan : ZeroScan) (i : Nat) : ZeroScan :=
  if scan.cnt > scan.cntMax then { scan with cntMax := scan.cnt, iMax := some (i - scan.cnt) } else scan

/-- The loop over the groups from `i` on, and the comparison behind it. -/
def scanZeros (scan : ZeroScan) (i : Nat) : List Nat → ZeroScan
  | [] => scan.close i
  | group :: rest =>
    if group ≠ 0 then scanZeros { scan.close i with cnt := 0 } (i + 1) rest
    else scanZeros { scan with cnt := scan.cnt + 1 } (i + 1) rest

/-- What `snprintf` leaves of a text in so many bytes. -/
def snprintf (size : Nat) (text : Text) : Text := text.take (size - 1)

/-- `i`, what is in front of `p`, and the text at `p`. -/
structure Printing where
  i : Nat
  out : Text
  rest : Text

/-- `a4` is set: the last four octets are an IPv4 address. -/
def hasIpv4 (a : List Nat) (scan : ZeroScan) : Bool :=
  scan.iMax = some 0 ∧ (scan.cntMax = 4 ∧ a.getD 4 0 = 0xffff ∧ a.getD 5 0 = 0 ∨
    scan.cntMax = 5 ∧ a.getD 5 0 = 0xffff)

/-- One turn of the loop that prints. -/
def printTurn (ipv6 : List UInt8) (a : List Nat) (scan : ZeroScan) (s : Printing) : Turn Printing Text :=
  if 8 ≤ s.i then .leave (s.out ++ s.rest)
  else if hasIpv4 a scan ∧ s.i = 6 then
    .leave (s.out ++ snprintf 16 (':' :: dotted ((ipv6.drop 12).map UInt8.toNat)))
  else if scan.iMax = some s.i then .again ⟨s.i + scan.cntMax, s.out ++ [':'], [':']⟩
  else
    let out := if s.i ≠ 0 then s.out ++ [':'] else s.out
    .again ⟨s.i + 1, out ++ snprintf 8 (hex (a.getD s.i 0)), []⟩

/-- The groups as `ntoh16` gives them. Nothing if eight turns of the loop are not enough. -/
def bcmIpv6Ntoa (ipv6 : List UInt8) : Option Text :=
  let a := beWords ipv6
  loopFor (printTurn ipv6 a (scanZeros ⟨0, 1, none⟩ 0 a)) 9 ⟨0, [], []⟩

abbrev Ipv6Addr := {octets : List UInt8 // octets.length = 16}

/-- The IPv4 address has four octets of three digits each. -/
def LongIpv4 (ipv6 : List UInt8) : Prop := isMixed (beWords ipv6) = true ∧ ∀ octet ∈ ipv6.drop 12, 100 ≤ octet

variable {groups rest : List Nat} {scan : ZeroScan} {start count i : Nat}

/-! ### The longest run of zeros -/

/-- Of the runs of zeros that end in front of `i` or there, the best one of two or more. -/
structure Best (groups : List Nat) (i cntMax : Nat) (iMax : Option Nat) : Prop where
  largest : ∀ start count, ZeroRun groups start count → start + count ≤ i → count ≤ cntMax
  none_ : iMax = none → cntMax = 1
  some_ : ∀ place, iMax = some place → 2 ≤ cntMax ∧ ZeroRun groups place cntMax ∧ place + cntMax ≤ i ∧
    ∀ start, ZeroRun groups start cntMax → start + cntMax ≤ i → place ≤ start

/-- The zeros in front of `i` are counted, and the best run in front of them is known. -/
structure Scanned (groups : List Nat) (i : Nat) (scan : ZeroScan) : Prop where
  counted : scan.cnt ≤ i
  zeros : ZeroRun groups (i - scan.cnt) scan.cnt
  apart : ∀ start count, ZeroRun groups start count → start + count ≤ i →
    count = 0 ∨ start + count < i - scan.cnt ∨ i - scan.cnt ≤ start
  best : Best groups (i - scan.cnt) scan.cntMax scan.iMax

theorem Scanned.close (scanned : Scanned groups i scan) :
    Best groups i (scan.close i).cntMax (scan.close i).iMax := by
  have least : 1 ≤ scan.cntMax := by
    cases place : scan.iMax with
    | none => exact (scanned.best.none_ place).ge
    | some place' => exact Nat.le_of_succ_le (scanned.best.some_ place' place).1
  -- a run that is not in front of the zeros is one of them
  have smaller : ∀ start count, ZeroRun groups start count → start + count ≤ i →
      count ≤ scan.cntMax ∨ count ≤ scan.cnt ∧ i - scan.cnt ≤ start := by
    intro start count zeros inside
    rcases scanned.apart start count zeros inside with rfl | front | behind
    · exact .inl (Nat.zero_le _)
    · exact .inl (scanned.best.largest start count zeros front.le)
    · exact .inr ⟨by omega, behind⟩
  unfold ZeroScan.close
  split
  · rename_i longer
    refine ⟨fun start count zeros inside => ?_, fun missing => ?_, fun place found => ?_⟩
    · have bound := smaller start count zeros inside
      dsimp only
      omega
    · cases missing
    · cases found
      have counted := scanned.counted
      refine ⟨by dsimp only; omega, scanned.zeros, by dsimp only; omega, fun start zeros inside => ?_⟩
      have bound := smaller start scan.cnt zeros inside
      omega
  · rename_i shorter
    refine ⟨fun start count zeros inside => ?_, scanned.best.none_, fun place found => ?_⟩
    · have bound := smaller start count zeros inside
      omega
    · obtain ⟨several, there, ends, first⟩ := scanned.best.some_ place found
      refine ⟨several, there, by omega, fun start zeros inside => ?_⟩
      rcases scanned.apart start _ zeros inside with none_ | front | behind
      · omega
      · exact first start zeros front.le
      · omega

/-- What is known behind the last group. -/
def Found (groups : List Nat) (scan : ZeroScan) : Prop :=
  match scan.iMax with
  | none => ∀ start count, ZeroRun groups start count → count < 2
  | some start => FirstLongest groups start scan.cntMax

theorem Best.found (best : Best groups groups.length scan.cntMax scan.iMax) : Found groups scan := by
  have inside : ∀ start count, ZeroRun groups start count → count = 0 ∨ start + count ≤ groups.length :=
    fun start count zeros => (Nat.eq_zero_or_pos count).imp_right zeros.inside
  unfold Found
  split
  · rename_i missing
    intro start count zeros
    have one := best.none_ missing
    rcases inside start count zeros with none_ | within
    · omega
    · have bound := best.largest start count zeros within
      omega
  · rename_i place found
    obtain ⟨several, there, _, first⟩ := best.some_ place found
    refine ⟨several, there, fun start count zeros => ?_⟩
    rcases inside start count zeros with none_ | within
    · omega
    · rcases Nat.lt_or_eq_of_le (best.largest start count zeros within) with less | same
      · exact .inl less
      · subst same
        exact .inr ⟨rfl, first start zeros within⟩

/-- A group that is zero, and one that is not. -/
theorem Scanned.zero (scanned : Scanned groups i scan) (here : groups[i]? = some 0) :
    Scanned groups (i + 1) { scan with cnt := scan.cnt + 1 } := by
  have counted := scanned.counted
  have same : i + 1 - (scan.cnt + 1) = i - scan.cnt := by omega
  refine ⟨by dsimp only; omega, fun place after before => ?_, fun start count zeros inside => ?_, ?_⟩
  · dsimp only at after before
    by_cases last : place = i
    · exact last ▸ here
    · exact scanned.zeros place (by omega) (by omega)
  · dsimp only
    rw [same]
    by_cases ends : start + count ≤ i
    · exact scanned.apart start count zeros ends
    · rcases Nat.eq_zero_or_pos count with none_ | some_
      · exact .inl none_
      -- without the last zero it is a run in front of it
      have shorter : ZeroRun groups start (count - 1) := fun place after before => zeros place after (by omega)
      rcases scanned.apart start (count - 1) shorter (by omega) with none_ | front | behind
      · omega
      · omega
      · exact .inr (.inr behind)
  · dsimp only
    rw [same]
    exact scanned.best

theorem Scanned.other {group : Nat} (scanned : Scanned groups i scan) (here : groups[i]? = some group)
    (differs : group ≠ 0) : Scanned groups (i + 1) { scan.close i with cnt := 0 } := by
  have best := scanned.close
  have ends : ∀ start count, ZeroRun groups start count → start + count ≤ i + 1 → count = 0 ∨ start + count ≤ i := by
    intro start count zeros inside
    by_contra both
    obtain ⟨some_, beyond⟩ := not_or.mp both
    have there := zeros i (by omega) (by omega)
    rw [here] at there
    exact differs (Option.some.inj there)
  refine ⟨Nat.zero_le _, fun place after before => ?_, fun start count zeros inside => ?_, ?_⟩
  · dsimp only at after before
    omega
  · exact (ends start count zeros inside).imp_right fun front => .inl (Nat.lt_succ_of_le front)
  · refine ⟨fun start count zeros inside => ?_, best.none_, fun place found => ?_⟩
    · rcases ends start count zeros inside with rfl | front
      · exact Nat.zero_le _
      · exact best.largest start count zeros front
    · obtain ⟨several, there, within, first⟩ := best.some_ place found
      refine ⟨several, there, Nat.le_succ_of_le within, fun start zeros inside => ?_⟩
      rcases ends start _ zeros inside with none_ | front
      · dsimp only at none_
        omega
      · exact first start zeros front

theorem scanZeros_found (scanned : Scanned groups i scan) (behind : groups.drop i = rest) (inside : i ≤ groups.length) :
    Found groups (scanZeros scan i rest) := by
  induction rest generalizing i scan with
  | nil =>
    have last := List.drop_eq_nil_iff.mp behind
    have whole : i = groups.length := by omega
    subst whole
    exact scanned.close.found
  | cons group rest ih =>
    have here : groups[i]? = some group := by
      rw [← List.head?_drop, behind, List.head?_cons]
    have next : groups.drop (i + 1) = rest := by
      rw [← List.tail_drop, behind, List.tail_cons]
    have more := (List.getElem?_eq_some_iff.mp here).1
    rw [scanZeros]
    split
    · rename_i differs
      exact ih (scanned.other here differs) next more
    · rename_i zero
      rw [not_not.mp zero] at here
      exact ih (scanned.zero here) next more

theorem scan_found (groups : List Nat) : Found groups (scanZeros ⟨0, 1, none⟩ 0 groups) := by
  refine scanZeros_found ⟨le_rfl, fun place _ before => ?_, fun start count _ inside => .inl (by omega), ?_⟩ rfl
    (Nat.zero_le _)
  · exact absurd before (Nat.not_lt_zero _)
  · exact ⟨fun start count _ inside => by dsimp only at inside ⊢; omega, fun _ => rfl, fun _ found => nomatch found⟩

/-- A run of zeros from the start that is long enough to be the longest one. -/
theorem zeros_from_start (found : Found groups scan) (eight : groups.length = 8) (zeros : ZeroRun groups 0 count)
    (large : 4 ≤ count) {group : Nat} (ends : groups[count]? = some group) (differs : group ≠ 0) :
    scan.iMax = some 0 ∧ scan.cntMax = count := by
  unfold Found at found
  split at found
  · have small := found 0 count zeros
    omega
  · rename_i start place
    rcases found.first 0 count zeros with longer | ⟨same, first⟩
    · have inside := found.zeros.inside (by omega)
      have there := found.zeros count (by omega) (by omega)
      rw [ends] at there
      exact absurd (Option.some.inj there) differs
    · rw [place, Nat.le_zero.mp first]
      exact ⟨rfl, same.symm⟩

theorem hasIpv4_eq (found : Found groups scan) (eight : groups.length = 8) :
    hasIpv4 groups scan = isMixed groups := by
  have begins : ∀ count, scan.iMax = some 0 → scan.cntMax = count → ∀ place < count, groups[place]? = some 0 := by
    intro count first longest place less
    rw [Found, first] at found
    exact found.zeros place (Nat.zero_le _) (by omega)
  rw [Bool.eq_iff_iff]
  match groups, eight with
  | [a, b, c, d, e, f, g, h], eight =>
    simp only [hasIpv4, isMixed, decide_eq_true_eq, Bool.or_eq_true, List.getD_cons_succ, List.getD_cons_zero,
      List.take_succ_cons, List.take_zero, List.cons.injEq, and_true]
    constructor
    · rintro ⟨first, ⟨four, fifth, sixth⟩ | ⟨five, sixth⟩⟩
      · have zeros := begins 4 first four
        exact .inr ⟨by simpa using zeros 0, by simpa using zeros 1, by simpa using zeros 2, by simpa using zeros 3,
          fifth, sixth⟩
      · have zeros := begins 5 first five
        exact .inl ⟨by simpa using zeros 0, by simpa using zeros 1, by simpa using zeros 2, by simpa using zeros 3,
          by simpa using zeros 4, sixth⟩
    · rintro (⟨rfl, rfl, rfl, rfl, rfl, rfl⟩ | ⟨rfl, rfl, rfl, rfl, rfl, rfl⟩)
      · have zeros : ZeroRun [0, 0, 0, 0, 0, 0xffff, g, h] 0 5 := by
          intro place _ less
          interval_cases place <;> rfl
        obtain ⟨first, five⟩ := zeros_from_start found rfl zeros (by decide) rfl (by decide)
        exact ⟨first, .inr ⟨five, rfl⟩⟩
      · have zeros : ZeroRun [0, 0, 0, 0, 0xffff, 0, g, h] 0 4 := by
          intro place _ less
          interval_cases place <;> rfl
        obtain ⟨first, four⟩ := zeros_from_start found rfl zeros (by decide) rfl (by decide)
        exact ⟨first, .inl ⟨four, rfl, rfl⟩⟩

/-! ### The loop that prints -/

section

variable {ipv6 : List UInt8} {a : List Nat} {out behind text : Text} {k : Nat}

theorem snprintf_hex {group : Nat} (fits : group < 65536) : snprintf 8 (hex group) = hex group := by
  have short : (hex group).length ≤ 4 := (Nat.length_toDigits_le_iff (by decide) (by decide)).mpr fits
  exact List.take_of_length_le (Nat.le_trans short (by decide))

/-- Neither the IPv4 address nor the zeros are printed at this group. -/
def Plain (a : List Nat) (scan : ZeroScan) (i : Nat) : Prop :=
  i < 8 ∧ ¬ (hasIpv4 a scan = true ∧ i = 6) ∧ scan.iMax ≠ some i

theorem printTurn_plain (fits : ∀ group ∈ a, group < 65536) (eight : a.length = 8) (plain : Plain a scan i) :
    printTurn ipv6 a scan ⟨i, out, behind⟩ =
      .again ⟨i + 1, (if i ≠ 0 then out ++ [':'] else out) ++ hex (a.getD i 0), []⟩ := by
  obtain ⟨inside, address, zeros⟩ := plain
  have small : a.getD i 0 < 65536 := by
    rw [List.getD_eq_getElem _ _ (by omega)]
    exact fits _ (List.getElem_mem _)
  unfold printTurn
  dsimp only
  rw [if_neg (by omega), if_neg address, if_neg zeros, snprintf_hex small]

/-- Groups in a row. -/
theorem leaves_stretch (fits : ∀ group ∈ a, group < 65536) (eight : a.length = 8) (some_ : 0 < i)
    (plain : ∀ j, i ≤ j → j < i + k → Plain a scan j)
    (left : Leaves (printTurn ipv6 a scan) ⟨i + k, out ++ behindColons (((a.drop i).take k).map hex), []⟩ text) :
    Leaves (printTurn ipv6 a scan) ⟨i, out, []⟩ text := by
  induction k generalizing i out with
  | zero => simpa [behindColons] using left
  | succ k ih =>
    have here := plain i le_rfl (by omega)
    have inside : i < a.length := by
      rw [eight]
      exact here.1
    have turn := @printTurn_plain scan i ipv6 a out [] fits eight here
    rw [if_pos (by omega)] at turn
    refine Loop.Leaves.back (ih (Nat.succ_pos _) (fun j after before => plain j (by omega) (by omega)) ?_) turn
    rw [List.drop_eq_getElem_cons inside, List.take_succ_cons, List.map_cons, behindColons, List.flatMap_cons] at left
    rw [List.getD_eq_getElem _ _ inside]
    have place : i + 1 + k = i + (k + 1) := by omega
    rw [place]
    simpa [behindColons] using left

/-- The groups in front of the zeros, or all of them. -/
theorem leaves_front (fits : ∀ group ∈ a, group < 65536) (eight : a.length = 8)
    (plain : ∀ j < start, Plain a scan j)
    (left : Leaves (printTurn ipv6 a scan) ⟨start, joined ((a.take start).map hex), []⟩ text) :
    Leaves (printTurn ipv6 a scan) ⟨0, [], []⟩ text := by
  cases start with
  | zero => exact left
  | succ k =>
    have inside : 0 < a.length := by omega
    have turn := @printTurn_plain scan 0 ipv6 a [] [] fits eight (plain 0 (Nat.succ_pos _))
    rw [if_neg (not_not.mpr rfl)] at turn
    rw [List.getD_eq_getElem _ _ inside] at turn
    have taken : a.take (k + 1) = a[0] :: (a.drop 1).take k := by
      rw [← List.take_succ_cons, ← List.drop_eq_getElem_cons inside, List.drop_zero]
    rw [taken, List.map_cons, joined_cons, Nat.add_comm k 1] at left
    refine Loop.Leaves.back (leaves_stretch fits eight (Nat.succ_pos 0) (fun j _ before => plain j ?_) left) turn
    exact Nat.lt_of_lt_of_eq before (Nat.add_comm _ _)

theorem leaves_end : Leaves (printTurn ipv6 a scan) ⟨8, out, behind⟩ (out ++ behind) :=
  Loop.leaves_of_leave (if_pos le_rfl)

/-- What is at `p` is written over by the next group. -/
theorem leaves_behind (inside : i < 8) (left : Leaves (printTurn ipv6 a scan) ⟨i, out, []⟩ text) :
    Leaves (printTurn ipv6 a scan) ⟨i, out, behind⟩ text := by
  have same : printTurn ipv6 a scan ⟨i, out, behind⟩ = printTurn ipv6 a scan ⟨i, out, []⟩ := by
    unfold printTurn
    simp only [if_neg (Nat.not_le.mpr inside)]
  obtain ⟨turns, done⟩ := left
  refine ⟨turns, ?_⟩
  cases turns with
  | zero => exact done
  | succ turns =>
    rw [loopFor, same]
    exact done

theorem elsewhere (place : scan.iMax = some start) (other : start ≠ i) : scan.iMax ≠ some i := by
  rw [place]
  exact fun same => other (Option.some.inj same)

theorem first_of_hasIpv4 (address : hasIpv4 a scan = true) : scan.iMax = some 0 :=
  (of_decide_eq_true address).1

/-- The loop comes to the end of the zeros. -/
theorem leaves_zeros (fits : ∀ group ∈ a, group < 65536) (eight : a.length = 8) (place : scan.iMax = some start)
    (inside : start < 8)
    (left : Leaves (printTurn ipv6 a scan)
      ⟨start + scan.cntMax, joined ((a.take start).map hex) ++ [':'], [':']⟩ text) :
    Leaves (printTurn ipv6 a scan) ⟨0, [], []⟩ text := by
  have early : ∀ j, hasIpv4 a scan = true → j ≤ start → j = 0 := by
    intro j address before
    have first := Option.some.inj (place.symm.trans (first_of_hasIpv4 address))
    omega
  have ordinary : ∀ j ≤ start, ¬ (hasIpv4 a scan = true ∧ j = 6) := by
    rintro j before ⟨address, six⟩
    have zero := early j address before
    omega
  have turn : printTurn ipv6 a scan ⟨start, joined ((a.take start).map hex), []⟩ =
      .again ⟨start + scan.cntMax, joined ((a.take start).map hex) ++ [':'], [':']⟩ := by
    unfold printTurn
    dsimp only
    rw [if_neg (Nat.not_le.mpr inside), if_neg (ordinary start le_rfl), if_pos place]
  refine leaves_front fits eight (fun j before => ?_) (Loop.Leaves.back left turn)
  exact ⟨before.trans inside, ordinary j before.le, elsewhere place before.ne'⟩

/-- Without an IPv4 address in it. -/
theorem leaves_plain (fits : ∀ group ∈ a, group < 65536) (eight : a.length = 8) (found : Found a scan)
    (single : isMixed a = false) : ∃ text, Recommended a text ∧ Leaves (printTurn ipv6 a scan) ⟨0, [], []⟩ text := by
  have never : ¬ hasIpv4 a scan = true := by
    rw [hasIpv4_eq found eight, single]
    exact Bool.false_ne_true
  unfold Found at found
  split at found
  · rename_i none_
    refine ⟨_, .inr ⟨found, rfl⟩, @leaves_front scan 8 _ a _ fits eight (fun j before => ⟨before, ?_, ?_⟩) ?_⟩
    · exact fun both => never both.1
    · rw [none_]
      exact nofun
    · rw [single, spelled_false, List.take_of_length_le eight.le]
      simpa using @leaves_end scan ipv6 a (joined (a.map hex)) []
  · rename_i start place
    have inside := found.zeros.inside (Nat.zero_lt_of_lt found.several)
    have several := found.several
    refine ⟨_, .inl ⟨start, scan.cntMax, found, rfl⟩, leaves_zeros fits eight place (by omega) ?_⟩
    rw [shortened, single, spelled_false, spelled_false]
    by_cases all : start + scan.cntMax = 8
    · rw [all, List.drop_of_length_le eight.le]
      simpa using @leaves_end scan ipv6 a (joined ((a.take start).map hex) ++ [':']) [':']
    · refine leaves_behind (by omega) (@leaves_stretch scan _ _ a _ _ (8 - (start + scan.cntMax)) fits eight (by omega)
        (fun j after before => ⟨by omega, fun both => never both.1, elsewhere place (by omega)⟩) ?_)
      have some_ : (a.drop (start + scan.cntMax)).map hex ≠ [] := by
        simp
        omega
      have rest : (a.drop (start + scan.cntMax)).length ≤ 8 - (start + scan.cntMax) := by
        rw [List.length_drop, eight]
      rw [Nat.add_sub_cancel' (by omega), List.take_of_length_le rest, behindColons_joined some_]
      simpa using @leaves_end scan ipv6 a (joined ((a.take start).map hex) ++ ':' :: ':' ::
        joined ((a.drop (start + scan.cntMax)).map hex)) []

/-- The recommended text ends in the IPv4 address, of which sixteen bytes are printed. -/
theorem leaves_mixed (fits : ∀ group ∈ a, group < 65536) (eight : a.length = 8) (found : Found a scan)
    (mixed : isMixed a = true) : ∃ front, Recommended a (front ++ ':' :: dotted (quad (a.getD 6 0) (a.getD 7 0))) ∧
      Leaves (printTurn ipv6 a scan) ⟨0, [], []⟩
        (front ++ snprintf 16 (':' :: dotted ((ipv6.drop 12).map UInt8.toNat))) := by
  have address : hasIpv4 a scan = true := (hasIpv4_eq found eight).trans mixed
  have first := first_of_hasIpv4 address
  have long : scan.cntMax = 4 ∨ scan.cntMax = 5 := (of_decide_eq_true address).2.imp And.left And.left
  rw [Found, first] at found
  refine ⟨':' :: behindColons (((a.drop scan.cntMax).take (6 - scan.cntMax)).map hex),
    .inl ⟨0, scan.cntMax, found, ?_⟩, leaves_zeros fits eight first (by decide) (leaves_behind (by omega)
      (@leaves_stretch scan _ _ a _ _ (6 - scan.cntMax) fits eight (by omega) (fun j after before => ?_) ?_))⟩
  · rw [shortened, mixed, Nat.zero_add]
    match a, eight with
    | [_, _, _, _, _, _, _, _], _ =>
      rcases long with four | five
      · rw [four]
        simp [spelled, behindColons, joined_cons]
      · rw [five]
        simp [spelled, behindColons, joined_cons]
  · exact ⟨by omega, fun both => by omega, elsewhere first (by omega)⟩
  · have six : 0 + scan.cntMax + (6 - scan.cntMax) = 6 := by omega
    rw [six, Nat.zero_add]
    refine Loop.leaves_of_leave ?_
    unfold printTurn
    dsimp only
    rw [if_neg (by decide), if_pos ⟨address, rfl⟩]
    rfl

end

/-! ### The text -/

theorem octetsOf_beWords {ipv6 : List UInt8} (even : ipv6.length % 2 = 0) : octetsOf (beWords ipv6) = ipv6 := by
  fun_induction beWords ipv6 with
  | case1 high low rest ih =>
    rw [List.length_cons, List.length_cons] at even
    have octets : UInt8.ofNat ((high.toNat * 256 + low.toNat) / 256) = high ∧
        UInt8.ofNat (high.toNat * 256 + low.toNat) = low := by
      have first := high.toNat_lt
      have second := low.toNat_lt
      constructor
      · rw [← UInt8.toNat_inj, UInt8.toNat_ofNat']
        omega
      · rw [← UInt8.toNat_inj, UInt8.toNat_ofNat']
        omega
    have rest_ := ih (by omega)
    rw [octetsOf] at rest_ ⊢
    rw [List.flatMap_cons, rest_, octets.1, octets.2]
    rfl
  | case2 last => exact absurd even (by simp)
  | case3 => rfl

theorem last_octets (ipv6 : Ipv6Addr) : (ipv6.val.drop 12).map UInt8.toNat =
    quad ((beWords ipv6.val).getD 6 0) ((beWords ipv6.val).getD 7 0) := by
  match ipv6 with
  | ⟨[_, _, _, _, _, _, _, _, _, _, _, _, a, b, c, d], _⟩ =>
    have second := b.toNat_lt
    have fourth := d.toNat_lt
    simp [beWords, quad]
    omega

/-- Fifteen characters are too few for four times three digits. -/
theorem snprintf_dotted {octets : List Nat} (four : octets.length = 4) (fits : ∀ octet ∈ octets, octet < 256) :
    snprintf 16 (':' :: dotted octets) = ':' :: dotted octets ↔ ¬ ∀ octet ∈ octets, 100 ≤ octet := by
  have three : ∀ octet < 256, (Nat.toDigits 10 octet).length ≤ 3 ∧
      ((Nat.toDigits 10 octet).length ≤ 2 ↔ octet < 100) := fun octet small =>
    ⟨(Nat.length_toDigits_le_iff (by decide) (by decide)).mpr (by omega),
      Nat.length_toDigits_le_iff (by decide) (by decide)⟩
  rw [snprintf, List.take_eq_self_iff]
  match octets, four with
  | [a, b, c, d], _ =>
    have first := three a (fits a (by simp))
    have second := three b (fits b (by simp))
    have third := three c (fits c (by simp))
    have fourth := three d (fits d (by simp))
    simp [dotted, List.intercalate_cons_cons]
    omega

theorem ipv6_terminates {ipv6 : List UInt8} {a : List Nat} {text : Text} (found : Found a scan)
    (left : Leaves (printTurn ipv6 a scan) ⟨0, [], []⟩ text) :
    loopFor (printTurn ipv6 a scan) 9 ⟨0, [], []⟩ = some text := by
  have smaller : ∀ state next, True → printTurn ipv6 a scan state = .again next →
      True ∧ 8 - next.i < 8 - state.i := by
    intro state next _ goesOn
    refine ⟨trivial, ?_⟩
    unfold printTurn at goesOn
    split at goesOn
    · cases goesOn
    · rename_i inside
      split at goesOn
      · cases goesOn
      · split at goesOn
        · rename_i place
          rw [Found, place] at found
          have several := found.several
          cases goesOn
          dsimp only
          omega
        · cases goesOn
          dsimp only
          omega
  obtain ⟨result, done⟩ := Loop.leaves_of_measure _ (fun _ => True) (fun s : Printing => 8 - s.i) smaller ⟨0, [], []⟩
    trivial
  rw [Loop.Leaves.unique left ⟨_, done⟩]
  exact done

/-- The recommended text, which is read as the address again, but for the longest IPv4 addresses. -/
theorem ipv6_text_iff (ipv6 : Ipv6Addr) : ∃ text, bcmIpv6Ntoa ipv6.val = some text ∧
    (Recommended (beWords ipv6.val) text ∧ parseIpv6 text = some ipv6.val ↔ ¬ LongIpv4 ipv6.val) := by
  have found := scan_found (beWords ipv6.val)
  have eight : (beWords ipv6.val).length = 8 := by rw [length_beWords, ipv6.property]
  have fits : ∀ group ∈ beWords ipv6.val, group < 65536 := fun group member =>
    Nat.lt_succ_of_le (beWords_le group member)
  have back : ∀ text, Recommended (beWords ipv6.val) text → parseIpv6 text = some ipv6.val := by
    intro text recommended
    rw [parseIpv6, recommended.parse eight fits, Option.map_some, octetsOf_beWords (by rw [ipv6.property])]
  cases mixed : isMixed (beWords ipv6.val) with
  | false =>
    obtain ⟨text, recommended, left⟩ := leaves_plain fits eight found mixed
    refine ⟨text, ipv6_terminates found left, iff_of_true ⟨recommended, back text recommended⟩ fun long => ?_⟩
    exact Bool.false_ne_true (mixed.symm.trans long.1)
  | true =>
    obtain ⟨front, recommended, left⟩ := @leaves_mixed _ ipv6.val _ fits eight found mixed
    have octets : ∀ octet ∈ (ipv6.val.drop 12).map UInt8.toNat, octet < 256 := by
      intro octet member
      obtain ⟨byte, _, rfl⟩ := List.mem_map.mp member
      exact byte.toNat_lt
    have whole := snprintf_dotted (by rw [List.length_map, List.length_drop, ipv6.property]) octets
    rw [← last_octets] at recommended
    have long : LongIpv4 ipv6.val ↔ ∀ octet ∈ (ipv6.val.drop 12).map UInt8.toNat, 100 ≤ octet := by
      rw [List.forall_mem_map]
      simp [LongIpv4, mixed, UInt8.le_iff_toNat_le]
    refine ⟨_, ipv6_terminates found left, ?_⟩
    rw [long, ← whole]
    constructor
    · intro both
      exact List.append_cancel_left (both.1.unique recommended)
    · intro same
      rw [same]
      exact ⟨recommended, back _ recommended⟩

/-- The text of ::ffff:255.255.255.255 loses its last digit. -/
theorem ipv6_text_cut :
    bcmIpv6Ntoa (List.replicate 10 0 ++ List.replicate 6 255) = some "::ffff:255.255.255.25".toList ∧
    ¬ (Recommended (beWords (List.replicate 10 0 ++ List.replicate 6 255)) "::ffff:255.255.255.25".toList ∧
      parseIpv6 "::ffff:255.255.255.25".toList = some (List.replicate 10 0 ++ List.replicate 6 255)) := by
  refine ⟨by decide, fun both => ?_⟩
  exact absurd both.2 (by decide)

end BcmDhd.Utils
