import Mathlib.Tactic

namespace BcmDhd.Dhcpd

def ddOk : Nat := 0
def ddResources : Nat := 1
def ddBadPacket : Nat := 4
def ddUnknown : Nat := 5

/-- `sizeof(struct bootp_frame)`, with an `unsigned long` of four bytes. -/
def sizeofBootpFrame : Nat := 236
def dhcpMagicCookie : Nat := 0x63538263

def pktUnknown : Nat := 0
def pktDiscover : Nat := 1
def pktRequest : Nat := 2
def pktDecline : Nat := 3
def pktInform : Nat := 8

def optPadding : Nat := 0
def optRequestedIp : Nat := 50
def optDhcpMessage : Nat := 53
def optServerId : Nat := 54
def optEnd : Nat := 255

def dhcpMsgTypeDiscover : Nat := 1
def dhcpMsgTypeRequest : Nat := 3
def dhcpMsgTypeDecline : Nat := 4
def dhcpMsgTypeInform : Nat := 8

/-- The bytes of `Data`, those of the packet and what is behind them. -/
abbrev Data := Nat → UInt8

def Data.byte (data : Data) (place : Nat) : Nat := (data place).toNat

/-- An `unsigned long` of a little-endian host. -/
def Data.long (data : Data) (place : Nat) : Nat :=
  data.byte place + 256 * (data.byte (place + 1) + 256 * (data.byte (place + 2) + 256 * data.byte (place + 3)))

/-- The options on the way: `pOpts`, `optBytesRemaining`, what has come of them, and the places
that have been read. -/
structure Options where
  pOpts : Nat
  remaining : Int
  packetType : Nat
  requestedIP : Nat
  optServerID : Nat
  reads : List Nat
deriving DecidableEq

/-- `*pOpts++`, with one byte less that remains. -/
def Options.next (s : Options) : Options :=
  { s with pOpts := s.pOpts + 1, remaining := s.remaining - 1, reads := s.reads ++ [s.pOpts] }

/-- The packet type of a message, unless it is ignored. -/
def messageType (message : Nat) : Option Nat :=
  if message = dhcpMsgTypeDiscover then some pktDiscover
  else if message = dhcpMsgTypeRequest then some pktRequest
  else if message = dhcpMsgTypeDecline then some pktDecline
  else if message = dhcpMsgTypeInform then some pktInform
  else none

/-- What is done with the value of an option; nothing for a bad packet. -/
def takeOption (data : Data) (optType optLen : Nat) (s : Options) : Option Options :=
  if optType = optRequestedIp then
    if optLen ≠ 4 then none
    else some { s with requestedIP := data.long s.pOpts, reads := s.reads ++ List.range' s.pOpts 4 }
  else if optType = optDhcpMessage then
    if optLen ≠ 1 then none
    else some { s with
      packetType := (messageType (data.byte s.pOpts)).getD s.packetType
      reads := s.reads ++ [s.pOpts] }
  else if optType = optServerId then
    if optLen = 4 then some { s with optServerID := data.long s.pOpts, reads := s.reads ++ List.range' s.pOpts 4 }
    else some s
  else some s

/-- The loop over the options, with the turns that `maxOpts` leaves. -/
def parseOptions (data : Data) : Nat → Options → Nat × Options
  | 0, s => (ddOk, s)
  | maxOpts + 1, s =>
    if s.remaining ≤ 0 then (ddOk, s)
    else
      let optType := data.byte s.pOpts
      let s := s.next
      if optType = optEnd then (ddOk, s)
      else if optType = optPadding then parseOptions data maxOpts s
      else
        let optLen := data.byte s.pOpts
        let s := s.next
        match takeOption data optType optLen s with
        | none => (ddBadPacket, s)
        | some s => parseOptions data maxOpts { s with pOpts := s.pOpts + optLen, remaining := s.remaining - optLen }

/-- `struct parsedPacket`; its pointers into the packet are places of it. -/
structure ParsedPacket where
  packetType : Nat
  requestedIP : Nat
  optServerID : Nat
  transactionID : Nat
  clientIP : Nat
  clientMAC : Nat
deriving DecidableEq

structure Parse where
  code : Nat
  packet : Option ParsedPacket
  reads : List Nat
deriving DecidableEq

def parsePacket (size : Nat) (data : Data) (allocates : Bool) : Parse :=
  if size < sizeofBootpFrame then ⟨ddUnknown, none, []⟩
  else
    let pOpts := sizeofBootpFrame
    let remaining : Int := size - sizeofBootpFrame
    if remaining < 4 then ⟨ddUnknown, none, []⟩
    else
      let reads := List.range' pOpts 4
      if data.long pOpts ≠ dhcpMagicCookie then ⟨ddUnknown, none, reads⟩
      else if allocates = false then ⟨ddResources, none, reads⟩
      else
        let parsed := parseOptions data 255 ⟨pOpts + 4, remaining - 4, pktUnknown, 0, 0, reads⟩
        if parsed.1 ≠ ddOk then ⟨ddUnknown, none, parsed.2.reads⟩
        else
          ⟨ddOk, some { packetType := parsed.2.packetType, requestedIP := parsed.2.requestedIP
                        optServerID := parsed.2.optServerID, transactionID := 4, clientIP := 12, clientMAC := 28 },
            parsed.2.reads⟩

/-- An option with a value. -/
structure DhcpOption where
  optType : Nat
  value : List Nat

/-- An option's value, as many bytes as its length says. -/
def valueAt (data : Data) (place len : Nat) : List Nat := (List.range len).map fun i => data.byte (place + i)

/-- The split into options from left to right: up to the end option, to the end of the packet or
to an option that it cuts off, in so many turns at most. -/
def splitOptions (data : Data) (size : Nat) : Nat → Nat → List DhcpOption
  | 0, _ => []
  | turns + 1, place =>
    if size ≤ place ∨ data.byte place = optEnd then []
    else if data.byte place = optPadding then splitOptions data size turns (place + 1)
    else
      let len := data.byte (place + 1)
      if place + 2 + len ≤ size then
        ⟨data.byte place, valueAt data (place + 2) len⟩ :: splitOptions data size turns (place + 2 + len)
      else []

/-- An option for which the packet is refused. -/
def Refused (optType optLen : Nat) : Prop :=
  optType = optRequestedIp ∧ optLen ≠ 4 ∨ optType = optDhcpMessage ∧ optLen ≠ 1

/-- An option of a kind that the server uses, with the prescribed length. -/
def Used (optType optLen : Nat) : Prop :=
  (optType = optRequestedIp ∨ optType = optServerId) ∧ optLen = 4 ∨ optType = optDhcpMessage ∧ optLen = 1

instance (optType optLen : Nat) : Decidable (Refused optType optLen) :=
  inferInstanceAs (Decidable (_ ∨ _))

instance (optType optLen : Nat) : Decidable (Used optType optLen) :=
  inferInstanceAs (Decidable (_ ∨ _))

/-- The places of the options that the lengths lead to, in so many turns at most. -/
def optionPlaces (data : Data) (size : Nat) : Nat → Nat → List Nat
  | 0, _ => []
  | turns + 1, place =>
    if size ≤ place ∨ data.byte place = optEnd then []
    else if data.byte place = optPadding then optionPlaces data size turns (place + 1)
    else
      place :: if Refused (data.byte place) (data.byte (place + 1)) then []
        else optionPlaces data size turns (place + 2 + data.byte (place + 1))

/-- The length of an option is in the packet, and so is a value that is used. -/
def OptionInside (data : Data) (size place : Nat) : Prop :=
  place + 1 < size ∧
    (Used (data.byte place) (data.byte (place + 1)) → place + 2 + data.byte (place + 1) ≤ size)

instance (data : Data) (size place : Nat) : Decidable (OptionInside data size place) :=
  inferInstanceAs (Decidable (_ ∧ (_ → _)))

/-- The message of a message-type option. -/
def DhcpOption.message : DhcpOption → Option Nat
  | ⟨optType, [message]⟩ => if optType = optDhcpMessage then some message else none
  | _ => none

/-- The packet type of a message, known or not. -/
def packetTypeOf (message : Nat) : Nat := (messageType message).getD pktUnknown

/-- The packet type of a message-type option that the server knows. -/
def DhcpOption.messageType (option : DhcpOption) : Option Nat := option.message.bind Dhcpd.messageType

/-- The address of an option of four bytes. -/
def DhcpOption.address (wanted : Nat) : DhcpOption → Option Nat
  | ⟨optType, [a, b, c, d]⟩ => if optType = wanted then some (a + 256 * (b + 256 * (c + 256 * d))) else none
  | _ => none

/-- The last thing that the options say, or else what was known before. -/
def lastOr (known : Nat) (said : List Nat) : Nat := said.getLast?.getD known

section Parser

variable {data : Data} {size turns : Nat} {options : List DhcpOption} {s after : Options}

theorem lastOr_cons (known first : Nat) (rest : List Nat) : lastOr known (first :: rest) = lastOr first rest := by
  unfold lastOr
  rw [List.getLast?_cons, Option.getD_some]

theorem lastOr_append (known : Nat) (before after : List Nat) :
    lastOr known (before ++ after) = lastOr (lastOr known before) after := by
  induction before generalizing known with
  | nil => rfl
  | cons first before ih => rw [List.cons_append, lastOr_cons, ih, lastOr_cons]

theorem lastOr_toList (known : Nat) (first : Option Nat) (rest : List Nat) :
    lastOr known (first.toList ++ rest) = lastOr (first.getD known) rest := by
  cases first with
  | none => rfl
  | some first => exact lastOr_cons known first rest

theorem filterMap_cons_toList {α β : Type} (f : α → Option β) (a : α) (rest : List α) :
    (a :: rest).filterMap f = (f a).toList ++ rest.filterMap f := by
  cases said : f a with
  | none => rw [List.filterMap_cons_none said]; rfl
  | some b => rw [List.filterMap_cons_some said]; rfl

/-- What the parser knows of options that it has gone through. -/
structure Learned (options : List DhcpOption) (s after : Options) : Prop where
  packetType : after.packetType = lastOr s.packetType (options.filterMap DhcpOption.messageType)
  requestedIP : after.requestedIP = lastOr s.requestedIP (options.filterMap (DhcpOption.address optRequestedIp))
  optServerID : after.optServerID = lastOr s.optServerID (options.filterMap (DhcpOption.address optServerId))

theorem Learned.nothing : Learned [] s s := ⟨rfl, rfl, rfl⟩

theorem Learned.cons {first : DhcpOption} {middle : Options}
    (packetType : middle.packetType = (first.messageType).getD s.packetType)
    (requestedIP : middle.requestedIP = (first.address optRequestedIp).getD s.requestedIP)
    (optServerID : middle.optServerID = (first.address optServerId).getD s.optServerID)
    (rest : Learned options middle after) : Learned (first :: options) s after := by
  refine ⟨?_, ?_, ?_⟩
  · rw [rest.packetType, packetType, filterMap_cons_toList, lastOr_toList]
  · rw [rest.requestedIP, requestedIP, filterMap_cons_toList, lastOr_toList]
  · rw [rest.optServerID, optServerID, filterMap_cons_toList, lastOr_toList]

theorem takeOption_none_iff {optType optLen : Nat} :
    takeOption data optType optLen s = none ↔ Refused optType optLen := by
  have apart : optRequestedIp ≠ optDhcpMessage := by decide
  unfold takeOption Refused
  split
  · rename_i requested
    subst requested
    simp [apart]
  · rename_i requested
    split
    · rename_i message
      subst message
      simp [apart.symm]
    · rename_i message
      split
      · split <;> simp [requested, message]
      · simp [requested, message]

/-- A value is read where it is used. -/
theorem takeOption_reads {optType optLen : Nat} (taken : takeOption data optType optLen s = some after) :
    (∀ place ∈ after.reads, place < size) ↔
      (∀ place ∈ s.reads, place < size) ∧ (Used optType optLen → s.pOpts + optLen ≤ size) := by
  have four : (∀ place ∈ s.reads ++ List.range' s.pOpts 4, place < size) ↔
      (∀ place ∈ s.reads, place < size) ∧ s.pOpts + 4 ≤ size := by
    simp only [List.forall_mem_append, List.mem_range'_1]
    exact and_congr_right fun _ =>
      ⟨fun all => by have last := all (s.pOpts + 3); omega, fun _ place _ => by omega⟩
  unfold takeOption at taken
  split at taken
  · rename_i requested
    split at taken
    · cases taken
    · rename_i right
      cases taken
      have used : Used optType optLen := Or.inl ⟨Or.inl requested, not_not.mp right⟩
      rw [imp_iff_right used, not_not.mp right]
      exact four
  · rename_i requested
    split at taken
    · rename_i message
      split at taken
      · cases taken
      · rename_i right
        cases taken
        have used : Used optType optLen := Or.inr ⟨message, not_not.mp right⟩
        rw [imp_iff_right used, not_not.mp right]
        exact List.forall_mem_append.trans (and_congr_right' (by simp))
    · rename_i message
      split at taken
      · rename_i server
        split at taken
        · rename_i right
          cases taken
          have used : Used optType optLen := Or.inl ⟨Or.inr server, right⟩
          rw [imp_iff_right used, right]
          exact four
        · rename_i wrong
          cases taken
          simp [Used, message, wrong]
      · rename_i server
        cases taken
        simp [Used, requested, message, server]

theorem length_valueAt (data : Data) (place len : Nat) : (valueAt data place len).length = len := by
  rw [valueAt, List.length_map, List.length_range]

/-- An option that is not used says nothing. -/
theorem unused_names {optType optLen : Nat} (unused : ¬ Used optType optLen) (place : Nat) :
    DhcpOption.message ⟨optType, valueAt data place optLen⟩ = none ∧
      DhcpOption.address optRequestedIp ⟨optType, valueAt data place optLen⟩ = none ∧
      DhcpOption.address optServerId ⟨optType, valueAt data place optLen⟩ = none := by
  have length := length_valueAt data place optLen
  have address : ∀ wanted, wanted = optRequestedIp ∨ wanted = optServerId →
      DhcpOption.address wanted ⟨optType, valueAt data place optLen⟩ = none := by
    intro wanted kind
    unfold DhcpOption.address
    split
    · rename_i same
      obtain ⟨rfl, value⟩ := DhcpOption.mk.inj same
      rw [value] at length
      refine if_neg fun type => unused (Or.inl ⟨?_, length.symm⟩)
      rwa [type]
    · rfl
  refine ⟨?_, address _ (Or.inl rfl), address _ (Or.inr rfl)⟩
  unfold DhcpOption.message
  split
  · rename_i same
    obtain ⟨rfl, value⟩ := DhcpOption.mk.inj same
    rw [value] at length
    exact if_neg fun type => unused (Or.inr ⟨type, length.symm⟩)
  · rfl

/-- What is done with one option: its value is learned. -/
theorem takeOption_learns {optType optLen : Nat} (taken : takeOption data optType optLen s = some after) :
    after.pOpts = s.pOpts ∧ after.remaining = s.remaining ∧
    after.packetType = (DhcpOption.messageType ⟨optType, valueAt data s.pOpts optLen⟩).getD s.packetType ∧
    after.requestedIP = (DhcpOption.address optRequestedIp ⟨optType, valueAt data s.pOpts optLen⟩).getD s.requestedIP ∧
    after.optServerID = (DhcpOption.address optServerId ⟨optType, valueAt data s.pOpts optLen⟩).getD s.optServerID := by
  by_cases used : Used optType optLen
  · unfold takeOption at taken
    rcases used with ⟨rfl | rfl, rfl⟩ | ⟨rfl, rfl⟩
    · rw [if_pos rfl, if_neg (not_not.mpr rfl)] at taken
      cases taken
      exact ⟨rfl, rfl, rfl, rfl, rfl⟩
    · rw [if_neg (by decide), if_neg (by decide), if_pos rfl, if_pos rfl] at taken
      cases taken
      exact ⟨rfl, rfl, rfl, rfl, rfl⟩
    · rw [if_neg (by decide), if_pos rfl, if_neg (not_not.mpr rfl)] at taken
      cases taken
      exact ⟨rfl, rfl, rfl, rfl, rfl⟩
  · obtain ⟨message, requested, server⟩ := @unused_names data _ _ used s.pOpts
    rw [DhcpOption.messageType, message, requested, server]
    have refused : ¬ Refused optType optLen := by
      rw [← @takeOption_none_iff data s, taken]
      simp
    unfold takeOption at taken
    unfold Used at used
    unfold Refused at refused
    rw [if_neg (by omega), if_neg (by omega)] at taken
    split at taken
    · rw [if_neg (by omega)] at taken
      cases taken
      exact ⟨rfl, rfl, rfl, rfl, rfl⟩
    · cases taken
      exact ⟨rfl, rfl, rfl, rfl, rfl⟩

theorem parseOptions_stop (none_ : s.remaining ≤ 0) : parseOptions data turns s = (ddOk, s) := by
  cases turns with
  | zero => rfl
  | succ turns => exact if_pos none_

theorem next_reads : (∀ place ∈ s.next.reads, place < size) ↔ (∀ place ∈ s.reads, place < size) ∧ s.pOpts < size := by
  exact List.forall_mem_append.trans (and_congr_right' (by simp))

theorem parseOptions_padding (some_ : 0 < s.remaining) (type : data.byte s.pOpts = optPadding) :
    parseOptions data (turns + 1) s = parseOptions data turns s.next := by
  have other : data.byte s.pOpts ≠ optEnd := by
    rw [type]
    decide
  rw [parseOptions, if_neg (not_le.mpr some_)]
  dsimp only
  rw [if_neg other, if_pos type]

theorem parseOptions_value (some_ : 0 < s.remaining)
    (other : data.byte s.pOpts ≠ optPadding ∧ data.byte s.pOpts ≠ optEnd) :
    (takeOption data (data.byte s.pOpts) (data.byte (s.pOpts + 1)) s.next.next = none ∧
      parseOptions data (turns + 1) s = (ddBadPacket, s.next.next)) ∨
    ∃ taken, takeOption data (data.byte s.pOpts) (data.byte (s.pOpts + 1)) s.next.next = some taken ∧
      parseOptions data (turns + 1) s = parseOptions data turns
        { taken with pOpts := taken.pOpts + data.byte (s.pOpts + 1)
                     remaining := taken.remaining - data.byte (s.pOpts + 1) } := by
  rw [parseOptions, if_neg (not_le.mpr some_)]
  dsimp only
  have second : s.next.pOpts = s.pOpts + 1 := rfl
  rw [if_neg other.2, if_neg other.1, second]
  cases takeOption data (data.byte s.pOpts) (data.byte (s.pOpts + 1)) s.next.next with
  | none => exact Or.inl ⟨rfl, rfl⟩
  | some taken => exact Or.inr ⟨taken, rfl, rfl⟩

/-- What the loop reads, whether it accepts, and what it has learned then. -/
theorem parseOptions_spec (left : s.remaining = size - s.pOpts) :
    ((∀ place ∈ (parseOptions data turns s).2.reads, place < size) ↔
      (∀ place ∈ s.reads, place < size) ∧ ∀ place ∈ optionPlaces data size turns s.pOpts,
        OptionInside data size place) ∧
    ((parseOptions data turns s).1 = ddOk ↔
      ∀ place ∈ optionPlaces data size turns s.pOpts, ¬ Refused (data.byte place) (data.byte (place + 1))) ∧
    ((∀ place ∈ optionPlaces data size turns s.pOpts, OptionInside data size place) →
      (parseOptions data turns s).1 = ddOk →
      Learned (splitOptions data size turns s.pOpts) s (parseOptions data turns s).2) := by
  induction turns generalizing s with
  | zero => exact ⟨by simp [optionPlaces, parseOptions], by simp [optionPlaces, parseOptions], fun _ _ => .nothing⟩
  | succ turns ih =>
    by_cases past : size ≤ s.pOpts
    · rw [parseOptions_stop (by omega), optionPlaces, splitOptions, if_pos (Or.inl past), if_pos (Or.inl past)]
      exact ⟨by simp, by simp, fun _ _ => .nothing⟩
    have inside : s.pOpts < size := not_le.mp past
    by_cases ended : data.byte s.pOpts = optEnd
    · rw [optionPlaces, splitOptions, if_pos (Or.inr ended), if_pos (Or.inr ended), parseOptions, if_neg (by omega)]
      dsimp only
      rw [if_pos ended, next_reads]
      exact ⟨by simp [inside], by simp, fun _ _ => ⟨rfl, rfl, rfl⟩⟩
    rw [optionPlaces, splitOptions, if_neg (not_or.mpr ⟨past, ended⟩), if_neg (not_or.mpr ⟨past, ended⟩)]
    by_cases padding : data.byte s.pOpts = optPadding
    · rw [parseOptions_padding (by omega) padding, if_pos padding, if_pos padding]
      have next : s.next.remaining = size - (s.next.pOpts : Int) := by
        unfold Options.next
        push_cast
        omega
      obtain ⟨reads, accepts, learns⟩ := ih next
      rw [next_reads] at reads
      refine ⟨reads.trans (by simp [inside, Options.next]), accepts, fun all ok => ?_⟩
      obtain ⟨packetType, requestedIP, optServerID⟩ := learns all ok
      exact ⟨packetType, requestedIP, optServerID⟩
    rw [if_neg padding, if_neg padding]
    have header : (∀ place ∈ s.next.next.reads, place < size) ↔
        (∀ place ∈ s.reads, place < size) ∧ s.pOpts + 1 < size := by
      rw [next_reads, next_reads]
      simp only [Options.next, inside, and_true]
    rcases @parseOptions_value data turns s (by omega) ⟨padding, ended⟩ with ⟨none_, same⟩ | ⟨taken, done, same⟩
    · have refused := takeOption_none_iff.mp none_
      have unused : ¬ Used (data.byte s.pOpts) (data.byte (s.pOpts + 1)) := by
        intro used
        unfold Used optRequestedIp optServerId optDhcpMessage at used
        unfold Refused optRequestedIp optDhcpMessage at refused
        omega
      have bad : ddBadPacket ≠ ddOk := by decide
      rw [same, if_pos refused]
      refine ⟨header.trans (by simp [OptionInside, unused]), ?_, fun _ ok => absurd ok bad⟩
      exact iff_of_false bad fun all => all s.pOpts List.mem_cons_self refused
    · have allowed : ¬ Refused (data.byte s.pOpts) (data.byte (s.pOpts + 1)) := by
        rw [← @takeOption_none_iff data s.next.next, done]
        simp
      obtain ⟨place, remains, packetType, requestedIP, optServerID⟩ := takeOption_learns done
      have place : taken.pOpts = s.pOpts + 2 := place
      have remains : taken.remaining = s.remaining - 1 - 1 := remains
      have value := (@takeOption_reads data size _ _ _ _ done).trans (and_congr_left' header)
      have used : s.next.next.pOpts = s.pOpts + 2 := rfl
      rw [used] at value packetType requestedIP optServerID
      obtain ⟨reads, accepts, learns⟩ := @ih { taken with pOpts := taken.pOpts + data.byte (s.pOpts + 1)
                                                          remaining := taken.remaining - data.byte (s.pOpts + 1) }
        (by dsimp only; push_cast; omega)
      rw [place] at reads accepts learns
      rw [same, place, if_neg allowed]
      refine ⟨?_, ?_, ?_⟩
      · rw [reads, List.forall_mem_cons, OptionInside]
        exact (and_congr_left' value).trans (by simp only [and_assoc])
      · rw [accepts, List.forall_mem_cons]
        exact (and_iff_right allowed).symm
      · intro all ok
        obtain ⟨here, later⟩ := List.forall_mem_cons.mp all
        obtain ⟨typeRest, requestedRest, serverRest⟩ := learns later ok
        dsimp only
        split
        · exact Learned.cons packetType requestedIP optServerID ⟨typeRest, requestedRest, serverRest⟩
        · rename_i beyond
          -- a value that the packet cuts off is not used, and behind it nothing is left
          have unused : ¬ Used (data.byte s.pOpts) (data.byte (s.pOpts + 1)) := fun used => beyond (here.2 used)
          obtain ⟨message, requested, server⟩ := @unused_names data _ _ unused (s.pOpts + 2)
          rw [DhcpOption.messageType, message] at packetType
          rw [requested] at requestedIP
          rw [server] at optServerID
          rw [parseOptions_stop (by dsimp only; omega)]
          exact ⟨packetType, requestedIP, optServerID⟩

/-- With fewer turns a split has the first of the options. -/
theorem splitOptions_more {more : Nat} (fewer : turns ≤ more) (place : Nat) :
    splitOptions data size turns place <+: splitOptions data size more place := by
  induction turns generalizing more place with
  | zero => exact List.nil_prefix
  | succ turns ih =>
    obtain ⟨more, rfl⟩ : ∃ rest, more = rest + 1 := ⟨more - 1, by omega⟩
    have fewer : turns ≤ more := by omega
    unfold splitOptions
    split
    · exact List.prefix_rfl
    · split
      · exact ih fewer (place + 1)
      · dsimp only
        split
        · exact List.prefix_cons_inj _ |>.mpr (ih fewer _)
        · exact List.prefix_rfl

end Parser

section Packet

variable {data : Data} {size : Nat} {allocates : Bool} {near far : List DhcpOption}

/-- The place of the first option. -/
def optionStart : Nat := sizeofBootpFrame + 4

/-- The options that the loop has turns for, and all of them. -/
def nearOptions (data : Data) (size : Nat) : List DhcpOption := splitOptions data size 255 optionStart

def allOptions (data : Data) (size : Nat) : List DhcpOption := splitOptions data size (255 + size) optionStart

/-- Only the packet is read, and of an accepted one is known what the last option of each kind says. -/
def PacketMeets (size : Nat) (data : Data) (allocates : Bool) : Prop :=
  let parse := parsePacket size data allocates
  let options := allOptions data size
  (∀ place ∈ parse.reads, place < size) ∧ ∀ packet ∈ parse.packet,
    packet.packetType = lastOr pktUnknown ((options.filterMap DhcpOption.message).map packetTypeOf) ∧
    packet.requestedIP = lastOr 0 (options.filterMap (DhcpOption.address optRequestedIp)) ∧
    packet.optServerID = lastOr 0 (options.filterMap (DhcpOption.address optServerId))

/-- The options are gone through. -/
def Opened (size : Nat) (data : Data) (allocates : Bool) : Prop :=
  optionStart ≤ size ∧ data.long sizeofBootpFrame = dhcpMagicCookie ∧ allocates = true

/-- The last word that comes later, if there is one, is the last one before. -/
def NothingNew (before later : List Nat) : Prop := ∀ word ∈ later.getLast?, word = lastOr 0 before

/-- The last message of all has the packet type of the last one that is known and came in time. -/
def TypeSettled (near far : List DhcpOption) : Prop :=
  match (far.filterMap DhcpOption.message).getLast? with
  | some message => packetTypeOf message = lastOr pktUnknown (near.filterMap DhcpOption.messageType)
  | none => ∀ message ∈ (near.filterMap DhcpOption.message).getLast?, messageType message = none →
      near.filterMap DhcpOption.messageType = []

/-- What the options behind those that are gone through say, and messages that are not known. -/
structure Settled (near far : List DhcpOption) : Prop where
  type : TypeSettled near far
  requestedIP : NothingNew (near.filterMap (DhcpOption.address optRequestedIp))
    (far.filterMap (DhcpOption.address optRequestedIp))
  optServerID : NothingNew (near.filterMap (DhcpOption.address optServerId))
    (far.filterMap (DhcpOption.address optServerId))

theorem nothingNew_iff (before later : List Nat) :
    lastOr 0 before = lastOr 0 (before ++ later) ↔ NothingNew before later := by
  rw [lastOr_append, NothingNew]
  cases last : later.getLast? with
  | none => simp [lastOr, last]
  | some word => simp [lastOr, last, eq_comm]

theorem messageType_pos {message type : Nat} (known : messageType message = some type) : type ≠ pktUnknown := by
  unfold messageType at known
  split at known
  · cases known; decide
  split at known
  · cases known; decide
  split at known
  · cases known; decide
  split at known
  · cases known; decide
  · cases known

/-- A message that is not known counts only where none before it was. -/
theorem lastType_iff (messages : List Nat) :
    lastOr pktUnknown (messages.filterMap messageType) = lastOr pktUnknown (messages.map packetTypeOf) ↔
      ∀ message ∈ messages.getLast?, messageType message = none → messages.filterMap messageType = [] := by
  rcases List.eq_nil_or_concat messages with rfl | ⟨before, message, rfl⟩
  · simp
  · rw [List.concat_eq_append, List.filterMap_append, List.map_append, lastOr_append, lastOr_append]
    cases known : messageType message with
    | some type => simp [known, packetTypeOf, lastOr]
    | none =>
      have none_ : lastOr (lastOr pktUnknown (before.map packetTypeOf)) ([message].map packetTypeOf) = pktUnknown := by
        simp [packetTypeOf, known, lastOr]
      rw [none_]
      simp only [List.filterMap_cons_none known, List.filterMap_nil, List.append_nil, List.getLast?_append_cons,
        List.getLast?_singleton, Option.mem_def, Option.some.injEq, forall_eq', known, forall_const]
      constructor
      · intro unknown
        rcases List.eq_nil_or_concat (before.filterMap messageType) with nothing | ⟨first, type, last⟩
        · exact nothing
        · have member : type ∈ before.filterMap messageType := by simp [last]
          obtain ⟨word, -, said⟩ := List.mem_filterMap.mp member
          rw [last, List.concat_eq_append, lastOr_append] at unknown
          exact absurd unknown (messageType_pos said)
      · intro nothing
        rw [nothing]
        rfl

theorem typeSettled_iff :
    lastOr pktUnknown (near.filterMap DhcpOption.messageType) =
      lastOr pktUnknown (((near ++ far).filterMap DhcpOption.message).map packetTypeOf) ↔ TypeSettled near far := by
  have types : near.filterMap DhcpOption.messageType = (near.filterMap DhcpOption.message).filterMap messageType :=
    List.filterMap_filterMap.symm
  rw [List.filterMap_append, List.map_append, lastOr_append, TypeSettled, types]
  rcases List.eq_nil_or_concat (far.filterMap DhcpOption.message) with none_ | ⟨before, message, last⟩
  · rw [none_]
    exact lastType_iff _
  · rw [last, List.concat_eq_append, List.map_append, lastOr_append, List.getLast?_append_cons,
      List.getLast?_singleton]
    exact eq_comm

theorem near_append : nearOptions data size ++ (allOptions data size).drop (nearOptions data size).length =
    allOptions data size :=
  (List.prefix_append_drop (splitOptions_more (Nat.le_add_right 255 size) optionStart)).symm

theorem parsePacket_unopened (unopened : ¬ Opened size data allocates) :
    (∀ place ∈ (parsePacket size data allocates).reads, place < size) ∧
      (parsePacket size data allocates).packet = none := by
  unfold parsePacket
  split
  · exact ⟨fun _ member => absurd member List.not_mem_nil, rfl⟩
  dsimp only
  split
  · exact ⟨fun _ member => absurd member List.not_mem_nil, rfl⟩
  have cookie : ∀ place ∈ List.range' sizeofBootpFrame 4, place < size := by
    intro place member
    have inside := (List.mem_range'_1.mp member).2
    omega
  split
  · exact ⟨cookie, rfl⟩
  split
  · exact ⟨cookie, rfl⟩
  · rename_i short bare same full
    refine absurd ⟨?_, not_not.mp same, by simpa using full⟩ unopened
    unfold optionStart
    omega

/-- The loop's state at the first option. -/
def optionsStart (size : Nat) : Options :=
  ⟨optionStart, size - sizeofBootpFrame - 4, pktUnknown, 0, 0, List.range' sizeofBootpFrame 4⟩

theorem parsePacket_opened (opened : Opened size data allocates) :
    let parsed := parseOptions data 255 (optionsStart size)
    (parsePacket size data allocates).reads = parsed.2.reads ∧
      (parsePacket size data allocates).packet =
        if parsed.1 = ddOk then
          some ⟨parsed.2.packetType, parsed.2.requestedIP, parsed.2.optServerID, 4, 12, 28⟩
        else none := by
  obtain ⟨long, cookie, memory⟩ := opened
  unfold optionStart at long
  unfold parsePacket
  dsimp only
  rw [if_neg (by omega), if_neg (by omega), if_neg (not_not.mpr cookie), if_neg (by simp [memory])]
  by_cases ok : (parseOptions data 255 (optionsStart size)).1 = ddOk
  · rw [if_pos ok]
    unfold optionsStart optionStart at ok ⊢
    rw [if_neg (not_not.mpr ok)]
    exact ⟨rfl, rfl⟩
  · rw [if_neg ok]
    unfold optionsStart optionStart at ok ⊢
    rw [if_pos ok]
    exact ⟨rfl, rfl⟩

/-- The packet is not opened, or each option has its length, and its value where it is used, inside
the packet, and the options behind the 255th turn and the messages that are not known say
nothing new about a packet that is accepted. -/
theorem parsePacket_meets_iff (size : Nat) (data : Data) (allocates : Bool) :
    PacketMeets size data allocates ↔
      (Opened size data allocates →
        (∀ place ∈ optionPlaces data size 255 optionStart, OptionInside data size place) ∧
        ((∀ place ∈ optionPlaces data size 255 optionStart, ¬ Refused (data.byte place) (data.byte (place + 1))) →
          Settled (nearOptions data size) ((allOptions data size).drop (nearOptions data size).length))) := by
  unfold PacketMeets
  dsimp only
  by_cases opened : Opened size data allocates
  · rw [imp_iff_right opened]
    have long : optionStart ≤ size := opened.1
    have cookie : ∀ place ∈ (optionsStart size).reads, place < size := by
      intro place member
      have inside := (List.mem_range'_1.mp member).2
      unfold optionStart at long
      omega
    obtain ⟨reads, packet⟩ := parsePacket_opened opened
    obtain ⟨inside, accepts, learns⟩ := @parseOptions_spec data size 255 (optionsStart size) (by
      unfold optionsStart optionStart
      push_cast
      omega)
    rw [reads, packet, inside, and_iff_right cookie]
    refine and_congr_right fun all => ?_
    change _ ↔ ((∀ place ∈ optionPlaces data size 255 (optionsStart size).pOpts, _) → _)
    rw [← accepts]
    by_cases ok : (parseOptions data 255 (optionsStart size)).1 = ddOk
    · obtain ⟨type, requestedIP, optServerID⟩ := learns all ok
      rw [if_pos ok, imp_iff_right ok]
      simp only [Option.mem_def, Option.some.injEq, forall_eq']
      rw [type, requestedIP, optServerID]
      have split := @near_append data size
      generalize (allOptions data size).drop (nearOptions data size).length = far at split ⊢
      rw [← split]
      change lastOr pktUnknown ((nearOptions data size).filterMap _) = _ ∧
        lastOr 0 ((nearOptions data size).filterMap _) = _ ∧ lastOr 0 ((nearOptions data size).filterMap _) = _ ↔ _
      rw [typeSettled_iff, List.filterMap_append, List.filterMap_append, nothingNew_iff, nothingNew_iff]
      exact ⟨fun all => ⟨all.1, all.2.1, all.2.2⟩, fun all => ⟨all.type, all.requestedIP, all.optServerID⟩⟩
    · simp [ok]
  · obtain ⟨reads, none_⟩ := parsePacket_unopened opened
    simp only [none_, opened, false_implies, iff_true]
    exact ⟨reads, fun packet found => absurd found (by simp)⟩

end Packet

/-- A packet with so many paddings and these options, and zeros everywhere else. -/
def packetOf (paddings : Nat) (options : List UInt8) : Data := fun place =>
  if place < 236 then 0
  else if place < 240 then [0x63, 0x82, 0x53, 0x63].getD (place - 236) 0
  else if place < 240 + paddings then 0
  else options.getD (place - (240 + paddings)) 0

theorem not_meets_of_type {size packetType : Nat} {data : Data} {allocates : Bool}
    (parsed : (parsePacket size data allocates).packet.map ParsedPacket.packetType = some packetType)
    (other : lastOr pktUnknown (((allOptions data size).filterMap DhcpOption.message).map packetTypeOf) ≠ packetType) :
    ¬ PacketMeets size data allocates := by
  intro meets
  obtain ⟨packet, found, type⟩ := Option.map_eq_some_iff.mp parsed
  exact other ((meets.2 packet found).1.symm.trans type)

/-- A type as a packet's last byte: its length is read behind the packet. A message type behind
255 paddings is not seen, nor does one that is not known count. -/
theorem parsePacket_misses :
    (∃ place ∈ (parsePacket 241 (packetOf 0 [53]) true).reads, 241 ≤ place) ∧
    ¬ PacketMeets 241 (packetOf 0 [53]) true ∧
    ¬ PacketMeets 498 (packetOf 255 [53, 1, 1]) true ∧
    ¬ PacketMeets 246 (packetOf 0 [53, 1, 1, 53, 1, 2]) true := by
  have behind : ∃ place ∈ (parsePacket 241 (packetOf 0 [53]) true).reads, 241 ≤ place := by decide +kernel
  refine ⟨behind, ?_, ?_, ?_⟩
  · intro meets
    obtain ⟨place, read, far⟩ := behind
    exact absurd (meets.1 place read) (not_lt.mpr far)
  · exact @not_meets_of_type _ pktUnknown _ _ (by decide +kernel) (by decide +kernel)
  · exact @not_meets_of_type _ pktDiscover _ _ (by decide +kernel) (by decide +kernel)

end BcmDhd.Dhcpd
