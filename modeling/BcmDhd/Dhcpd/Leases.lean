import BcmDhd.Dhcpd.Server

namespace BcmDhd.Dhcpd

open BcmDhd.Lib

abbrev Entry := Call × Answer

/-- The client that was last acknowledged an address, and when. -/
def noteAck (address : Nat) (last : Option (Mac × Nat)) (entry : Entry) : Option (Mac × Nat) :=
  if entry.2 = .ack address then some (entry.1.clientMAC, entry.1.now) else last

def lastAck (past : List Entry) (address : Nat) : Option (Mac × Nat) := past.foldl (noteAck address) none

/-- Its lease time has not passed. -/
def Fresh (config : Config) (now : Nat) (entry : Entry) : Prop := now < entry.1.now + config.leaseTime

/-- What is offered or acknowledged is nobody else's, and nothing is offered that has been
declined. -/
def Exclusive (config : Config) (past : List Entry) (entry : Entry) : Prop :=
  ∀ address, entry.2 = .offer address ∨ entry.2 = .ack address →
    (∀ mac time, lastAck past address = some (mac, time) → entry.1.now < time + config.leaseTime →
      mac = entry.1.clientMAC) ∧
    (entry.2 = .offer address → ∀ other ∈ past, other.2 = .declined address → ¬Fresh config entry.1.now other)

/-- No two clients have leases of one address at the same time. -/
def OneLease (config : Config) (history : List Entry) : Prop :=
  ∀ past entry rest, history = past ++ entry :: rest → ∀ address, entry.2 = .ack address →
    ∀ other ∈ past, other.2 = .ack address → Fresh config entry.1.now other →
      other.1.clientMAC = entry.1.clientMAC

/-- The client has a slot. The address that marks declined slots is no client's. -/
def Owner (pool : Pool) (call : Call) : Prop :=
  call.clientMAC ≠ broadcastMacAddress ∧ ipLookupByMAC pool call.clientMAC ≠ none

/-- A client that has no slot is given one whose address has not been acknowledged or
declined for a lease time; an allowed client that asks for a slot's address has this slot. -/
def Orderly (config : Config) (past : List Entry) (server : Server) (call : Call) : Prop :=
  match call.packetType with
  | .discover => ¬Owner server.ipPool call → ∀ i ip, discovered config server.ipPool call = some (i, ip) →
      ∀ entry ∈ past, entry.2 = .ack ip.ipAddress ∨ entry.2 = .declined ip.ipAddress → ¬Fresh config call.now entry
  | .request => server.registered call = true → call.clientMAC ≠ broadcastMacAddress ∧
      ∀ i ip, ipLookup server.ipPool call.wanted = some (i, ip) → ip.clientID = call.clientMAC
  | .decline => True

/-- The slot of an address belongs to a client. -/
def HeldBy (pool : Pool) (address : Nat) (mac : Mac) : Prop :=
  mac ≠ broadcastMacAddress ∧ ∃ i ip, pool.At i ip ∧ ip.ipAddress = address ∧ ip.clientID = mac

/-- What has been acknowledged or declined is remembered by the slots as long as it matters:
an address that was acknowledged is its client's slot's, unless it was declined since, and
then no client's. -/
structure Remembers (config : Config) (server : Server) (past : List Entry) : Prop where
  placed : server.ipPool.Placed config
  earlier : ∀ entry ∈ past, entry.1.now ≤ server.time
  acked : ∀ address mac time, lastAck past address = some (mac, time) → time + config.leaseTime ≤ server.time ∨
    HeldBy server.ipPool address mac ∨ ∃ entry ∈ past, entry.2 = .declined address ∧ time ≤ entry.1.now
  declined : ∀ entry ∈ past, ∀ address, entry.2 = .declined address →
    entry.1.now + config.leaseTime ≤ server.time ∨ ∀ mac, ¬HeldBy server.ipPool address mac

section

variable {config : Config} {server : Server} {past rest : List Entry} {call : Call} {entry : Entry} {pool : Pool}
  {address i : Nat} {ip : IP} {mac other : Mac} {answer : Answer} {time : Nat}

theorem lastAck_append (past : List Entry) (entry : Entry) (address : Nat) :
    lastAck (past ++ [entry]) address = noteAck address (lastAck past address) entry := List.foldl_concat ..

theorem lastAck_new (acks : entry.2 = .ack address) :
    lastAck (past ++ [entry]) address = some (entry.1.clientMAC, entry.1.now) := by
  rw [lastAck_append, noteAck, if_pos acks]

theorem lastAck_other (differs : entry.2 ≠ .ack address) :
    lastAck (past ++ [entry]) address = lastAck past address := by
  rw [lastAck_append, noteAck, if_neg differs]

theorem lastAck_mem (last : lastAck past address = some (mac, time)) :
    ∃ entry ∈ past, entry.2 = .ack address ∧ entry.1.clientMAC = mac ∧ entry.1.now = time := by
  induction past using List.reverseRecOn with
  | nil => cases last
  | append_singleton past entry ih =>
    by_cases acks : entry.2 = .ack address
    · rw [lastAck_new acks] at last
      cases last
      exact ⟨entry, by simp, acks, rfl, rfl⟩
    · rw [lastAck_other acks] at last
      obtain ⟨found, among, rest⟩ := ih last
      exact ⟨found, List.mem_append_left _ among, rest⟩

theorem lastAck_latest (ordered : past.Pairwise fun first second => first.1.now ≤ second.1.now) (among : entry ∈ past)
    (acks : entry.2 = .ack address) : ∃ mac time, lastAck past address = some (mac, time) ∧ entry.1.now ≤ time := by
  induction past using List.reverseRecOn with
  | nil => cases among
  | append_singleton past last ih =>
    obtain ⟨before, _, later⟩ := List.pairwise_append.mp ordered
    by_cases here : last.2 = .ack address
    · refine ⟨_, _, lastAck_new here, ?_⟩
      rcases List.mem_append.mp among with old | new
      · exact later entry old last (by simp)
      · rw [List.mem_singleton.mp new]
    · rw [lastAck_other here]
      rcases List.mem_append.mp among with old | new
      · exact ih before old
      · rw [List.mem_singleton.mp new] at acks
        exact absurd acks here

/-- If every acknowledgement goes to the last client or after its time, leases do not overlap. -/
theorem lastAck_holder (ordered : past.Pairwise fun first second => first.1.now ≤ second.1.now)
    (each : ∀ before entry rest, past = before ++ entry :: rest → Exclusive config before entry)
    (among : entry ∈ past) (acks : entry.2 = .ack address) (last : lastAck past address = some (mac, time))
    (lasts : time < entry.1.now + config.leaseTime) : entry.1.clientMAC = mac := by
  induction past using List.reverseRecOn generalizing mac time with
  | nil => cases among
  | append_singleton past final ih =>
    obtain ⟨before, _, later⟩ := List.pairwise_append.mp ordered
    have inner : ∀ first entry rest, past = first ++ entry :: rest → Exclusive config first entry := by
      intro first entry rest split
      exact each first entry (rest ++ [final]) (by rw [split, List.append_assoc, List.cons_append])
    by_cases here : final.2 = .ack address
    · rw [lastAck_new here] at last
      cases last
      rcases List.mem_append.mp among with old | new
      · obtain ⟨holder, since, previous, after⟩ := lastAck_latest before old acks
        have upTo : since ≤ final.1.now := by
          obtain ⟨found, member, _, _, same⟩ := lastAck_mem previous
          exact same ▸ later found member final (by simp)
        have same := ih before inner old previous (by omega)
        exact same.trans ((each past final [] rfl address (Or.inr here)).1 holder since previous (by omega))
      · rw [List.mem_singleton.mp new]
    · rw [lastAck_other here] at last
      rcases List.mem_append.mp among with old | new
      · exact ih before inner old last lasts
      · rw [List.mem_singleton.mp new] at acks
        exact absurd acks here

theorem oneLease_of_each (ordered : rest.Pairwise fun first second => first.1.now ≤ second.1.now)
    (each : ∀ before entry after, rest = before ++ entry :: after → Exclusive config before entry) :
    OneLease config rest := by
  intro past entry after split address acks older among acked lasts
  rw [split] at ordered
  obtain ⟨before, _, later⟩ := List.pairwise_append.mp ordered
  have inner : ∀ first entry rest, past = first ++ entry :: rest → Exclusive config first entry := by
    intro first found others same
    exact each first found (others ++ entry :: after) (by rw [split, same, List.append_assoc, List.cons_append])
  obtain ⟨holder, since, previous, latest⟩ := lastAck_latest before among acked
  have upTo : since ≤ entry.1.now := by
    obtain ⟨found, member, _, _, same⟩ := lastAck_mem previous
    exact same ▸ later found member entry (by simp)
  unfold Fresh at lasts
  have same := lastAck_holder before inner among acked previous (by omega)
  exact same.trans ((each past entry after split address (Or.inr acks)).1 holder since previous (by omega))

theorem HeldBy.unique (placed : pool.Placed config) (held : HeldBy pool address mac) (there : pool.At i ip)
    (same : ip.ipAddress = address) : ip.clientID = mac := by
  obtain ⟨_, j, found, at_, address, client⟩ := held
  have here := placed.unique there at_ (same.trans address.symm)
  subst here
  have one := Option.some.inj (Option.some.inj (there.symm.trans at_))
  rw [one, client]

theorem heldBy_assign (placed : pool.Placed config) (inside : i < pool.length) (own : ip.ipAddress = config.address i)
    (differs : ip.ipAddress ≠ address) : HeldBy (assign pool i ip other) address mac ↔ HeldBy pool address mac := by
  unfold HeldBy
  refine and_congr_right fun _ => exists_congr fun j => exists_congr fun found => ?_
  by_cases here : j = i
  · subst here
    constructor
    · intro held
      have same := Option.some.inj (Option.some.inj ((assign_self inside).symm.trans held.1))
      subst same
      exact absurd held.2.1 differs
    · intro held
      exact absurd (own.trans ((placed.own j found held.1).symm.trans held.2.1)) differs
  · rw [assign_other here]

theorem heldBy_self (inside : i < pool.length) (client : mac ≠ broadcastMacAddress) :
    HeldBy (assign pool i ip mac) ip.ipAddress mac := ⟨client, i, _, assign_self inside, rfl, rfl⟩

theorem not_heldBy_self (placed : pool.Placed config) (inside : i < pool.length)
    (own : ip.ipAddress = config.address i) : ¬HeldBy (assign pool i ip broadcastMacAddress) ip.ipAddress mac := by
  intro held
  have client := held.unique (placed.assign inside own) (assign_self inside) rfl
  exact held.1 client.symm

theorem slot_inside (found : pool.At i ip ∨ pool[i]? = some none ∧ ip.ipAddress = config.address i) :
    i < pool.length := by
  rcases found with there | ⟨free, _⟩
  · exact there.inside
  · exact (List.getElem?_eq_some_iff.mp free).1

theorem slot_address (placed : pool.Placed config)
    (found : pool.At i ip ∨ pool[i]? = some none ∧ ip.ipAddress = config.address i) :
    ip.ipAddress = config.address i := by
  rcases found with there | ⟨_, own⟩
  · exact placed.own i ip there
  · exact own

theorem Owner.discovered (config : Config) (owner : Owner pool call) :
    ∃ i ip, Dhcpd.discovered config pool call = some (i, ip) ∧ pool.At i ip ∧ ip.clientID = call.clientMAC := by
  cases byMac : ipLookupByMAC pool call.clientMAC with
  | none => exact absurd byMac owner.2
  | some found =>
    refine ⟨found.1, found.2, by simp only [Dhcpd.discovered, byMac], ?_⟩
    exact ipLookupByMAC_found byMac

/-- The pool and the answer after a packet. -/
inductive Turn (config : Config) (server : Server) (call : Call) : Pool → Answer → Prop
  | refused (answer : Answer) (quiet : answer = .nothing ∨ answer = .nak) :
      Turn config server call server.ipPool answer
  | acknowledged (i : Nat) (ip : IP) (kind : call.packetType = .request) (allowed : server.registered call = true)
      (found : ipLookup server.ipPool call.wanted = some (i, ip)) :
      Turn config server call server.ipPool (.ack ip.ipAddress)
  | unknown (missing : ipLookup server.ipPool call.requestedIP = none) :
      Turn config server call server.ipPool (.declined call.requestedIP)
  | declined (i : Nat) (ip : IP) (found : ipLookup server.ipPool call.requestedIP = some (i, ip)) :
      Turn config server call (assign server.ipPool i ip broadcastMacAddress) (.declined call.requestedIP)
  | offered (i : Nat) (ip : IP) (answer : Answer) (kind : call.packetType = .discover)
      (found : discovered config server.ipPool call = some (i, ip))
      (sent : answer = .offer ip.ipAddress ∨ answer = .nothing) :
      Turn config server call (assign server.ipPool i ip call.clientMAC) answer

theorem sent_cases (call : Call) (answer : Answer) : call.sent answer = answer ∨ call.sent answer = .nothing := by
  unfold Call.sent
  split
  · exact Or.inl rfl
  · exact Or.inr rfl

theorem handle_turn (config : Config) (server : Server) (call : Call) :
    Turn config server call (handle config server call).1.ipPool (handle config server call).2 := by
  unfold handle
  split
  · rename_i kind
    dsimp only
    cases found : discovered config server.ipPool call with
    | none =>
      dsimp only
      split <;> exact .refused _ (Or.inl rfl)
    | some slot => exact .offered slot.1 slot.2 _ kind found (sent_cases call _)
  · rename_i kind
    split
    · rename_i allowed
      split
      · exact .refused _ (Or.inl rfl)
      · cases found : ipLookup server.ipPool call.wanted with
        | none => exact .refused _ ((sent_cases call _).symm)
        | some slot =>
          dsimp only
          rcases sent_cases call (.ack slot.2.ipAddress) with sent | sent
          · rw [sent]
            exact .acknowledged slot.1 slot.2 kind allowed found
          · exact .refused _ (Or.inl sent)
    · exact .refused _ (Or.inl rfl)
  · split
    · split
      · exact .refused _ (Or.inl rfl)
      · cases found : ipLookup server.ipPool call.requestedIP with
        | none => exact .unknown found
        | some slot => exact .declined slot.1 slot.2 found
    · exact .refused _ (Or.inl rfl)

theorem serverStep_turn (config : Config) (server : Server) (call : Call) :
    Turn config server call (serverStep config server call).1.ipPool (serverStep config server call).2 := by
  unfold serverStep
  split
  · exact handle_turn config server call
  · exact .refused _ (Or.inl rfl)

theorem serverStep_time (config : Config) (server : Server) (call : Call) :
    (serverStep config server call).1.time = call.now := by
  unfold serverStep
  split <;> rfl

theorem Steady.later (steady : Steady server call) : server.time ≤ call.now := steady.1.trans (steady.2.2 0)

/-- An address that is the client's slot's has been acknowledged to nobody else for a lease
time, and not been declined. -/
theorem Remembers.holder (remembers : Remembers config server past) (later : server.time ≤ call.now)
    (held : HeldBy server.ipPool address call.clientMAC) :
    (∀ mac time, lastAck past address = some (mac, time) → call.now < time + config.leaseTime →
      mac = call.clientMAC) ∧
    ∀ other ∈ past, other.2 = .declined address → ¬Fresh config call.now other := by
  have noDecline : ∀ other ∈ past, other.2 = .declined address →
      other.1.now + config.leaseTime ≤ server.time := by
    intro other among declines
    rcases remembers.declined other among address declines with old | nobody
    · exact old
    · exact absurd held (nobody _)
  constructor
  · intro mac time last lasts
    rcases remembers.acked address mac time last with old | also | ⟨other, among, declines, since⟩
    · omega
    · obtain ⟨_, i, ip, there, own, client⟩ := also
      rw [← client]
      exact held.unique remembers.placed there own
    · have old := noDecline other among declines
      omega
  · intro other among declines fresh
    have old := noDecline other among declines
    unfold Fresh at fresh
    omega

/-- What a packet has to keep. -/
theorem Remembers.next {next : Server} (remembers : Remembers config server past) (later : server.time ≤ call.now)
    (now : next.time = call.now) (placed : next.ipPool.Placed config)
    (keeps : ∀ address mac time, lastAck past address = some (mac, time) → HeldBy server.ipPool address mac →
      call.now < time + config.leaseTime → HeldBy next.ipPool address mac ∨ answer = .declined address)
    (gains : ∀ address mac, HeldBy next.ipPool address mac → HeldBy server.ipPool address mac ∨
      ∀ entry ∈ past, entry.2 = .declined address → ¬Fresh config call.now entry)
    (acks : ∀ address, answer = .ack address → HeldBy next.ipPool address call.clientMAC)
    (declines : ∀ address, answer = .declined address → ∀ mac, ¬HeldBy next.ipPool address mac) :
    Remembers config next (past ++ [(call, answer)]) where
  placed := placed
  earlier entry among := by
    rcases List.mem_append.mp among with old | new
    · have before := remembers.earlier entry old
      omega
    · rw [List.mem_singleton.mp new, now]
  acked address mac time last := by
    rw [now]
    by_cases here : (call, answer).2 = .ack address
    · rw [lastAck_new here] at last
      cases last
      exact Or.inr (Or.inl (acks address here))
    · rw [lastAck_other here] at last
      by_cases passed : time + config.leaseTime ≤ call.now
      · exact Or.inl passed
      rcases remembers.acked address mac time last with old | held | ⟨other, among, declined, since⟩
      · omega
      · rcases keeps address mac time last held (by omega) with still | declined
        · exact Or.inr (Or.inl still)
        · obtain ⟨found, among, _, _, same⟩ := lastAck_mem last
          have before := remembers.earlier found among
          have since : time ≤ call.now := by omega
          exact Or.inr (Or.inr ⟨(call, answer), by simp, declined, since⟩)
      · exact Or.inr (Or.inr ⟨other, List.mem_append_left _ among, declined, since⟩)
  declined entry among address declined := by
    rw [now]
    rcases List.mem_append.mp among with old | new
    · by_cases passed : entry.1.now + config.leaseTime ≤ call.now
      · exact Or.inl passed
      refine Or.inr fun mac held => ?_
      rcases gains address mac held with before | past
      · rcases remembers.declined entry old address declined with early | nobody
        · omega
        · exact nobody mac before
      · exact past entry old declined (by unfold Fresh; omega)
    · rw [List.mem_singleton.mp new] at declined
      exact Or.inr (declines address declined)

/-- A packet that is handled as it should be. -/
theorem step_exclusive (remembers : Remembers config server past) (steady : Steady server call)
    (orderly : Orderly config past server call) :
    Exclusive config past (call, (serverStep config server call).2) ∧
      Remembers config (serverStep config server call).1 (past ++ [(call, (serverStep config server call).2)]) := by
  have placed := remembers.placed
  have later := steady.later
  have now := serverStep_time config server call
  have turn := serverStep_turn config server call
  generalize serverStep config server call = stepped at now turn ⊢
  obtain ⟨next, answer⟩ := stepped
  dsimp only at now turn ⊢
  generalize pool : next.ipPool = after at turn
  cases turn with
  | refused answer quiet =>
    refine ⟨fun address promised => ?_, remembers.next later now (pool ▸ placed) ?_ ?_ ?_ ?_⟩
    · rcases quiet with quiet | quiet <;> rw [quiet] at promised <;> simp at promised
    · exact fun address mac time last held _ => Or.inl (pool ▸ held)
    · exact fun address mac held => Or.inl (pool ▸ held)
    · intro address acks
      rcases quiet with quiet | quiet <;> rw [quiet] at acks <;> cases acks
    · intro address declines
      rcases quiet with quiet | quiet <;> rw [quiet] at declines <;> cases declines
  | acknowledged i ip kind allowed found =>
    unfold Orderly at orderly
    rw [kind] at orderly
    obtain ⟨proper, own⟩ := orderly allowed
    have client := own i ip found
    have held : HeldBy server.ipPool ip.ipAddress call.clientMAC :=
      ⟨proper, i, ip, (ipLookup_found found).1, rfl, client⟩
    have nobodyElse := remembers.holder later held
    refine ⟨fun address promised => ?_, remembers.next later now (pool ▸ placed) ?_ ?_ ?_ ?_⟩
    · rcases promised with offered | acked
      · cases offered
      · cases acked
        exact ⟨nobodyElse.1, fun offered => by cases offered⟩
    · exact fun address mac time last held _ => Or.inl (pool ▸ held)
    · exact fun address mac held => Or.inl (pool ▸ held)
    · intro address acks
      cases acks
      exact pool ▸ held
    · intro address declines
      cases declines
  | unknown missing =>
    refine ⟨fun address promised => ?_, remembers.next later now (pool ▸ placed) ?_ ?_ ?_ ?_⟩
    · rcases promised with offered | acked
      · cases offered
      · cases acked
    · exact fun address mac time last held _ => Or.inl (pool ▸ held)
    · exact fun address mac held => Or.inl (pool ▸ held)
    · intro address acks
      cases acks
    · intro address declines mac held
      cases declines
      rw [pool] at held
      obtain ⟨_, i, ip, there, own, _⟩ := held
      exact ipLookup_none missing there own
  | declined i ip found =>
    obtain ⟨there, own⟩ := ipLookup_found found
    have inside := there.inside
    have proper := placed.own i ip there
    have assigned : Pool.Placed config (assign server.ipPool i ip broadcastMacAddress) := placed.assign inside proper
    refine ⟨fun address promised => ?_, remembers.next later now (pool ▸ assigned) ?_ ?_ ?_ ?_⟩
    · rcases promised with offered | acked
      · cases offered
      · cases acked
    · intro address mac time last held _
      by_cases here : ip.ipAddress = address
      · exact Or.inr (by rw [← here, own])
      · exact Or.inl (pool ▸ (heldBy_assign placed inside proper here).mpr held)
    · intro address mac held
      rw [pool] at held
      by_cases here : ip.ipAddress = address
      · subst here
        exact absurd held (not_heldBy_self placed inside proper)
      · exact Or.inl ((heldBy_assign placed inside proper here).mp held)
    · intro address acks
      cases acks
    · intro address declines mac held
      cases declines
      rw [pool, ← own] at held
      exact not_heldBy_self placed inside proper held
  | offered i ip answer kind found sent =>
    have slot := discovered_found found
    have inside := slot_inside slot
    have proper := slot_address placed slot
    have assigned : Pool.Placed config (assign server.ipPool i ip call.clientMAC) := placed.assign inside proper
    unfold Orderly at orderly
    rw [kind] at orderly
    -- a client with a slot gets it again, and any other one a slot without a past
    have nobodyElse : (∀ mac time, lastAck past ip.ipAddress = some (mac, time) →
          call.now < time + config.leaseTime → mac = call.clientMAC) ∧
        ∀ other ∈ past, other.2 = .declined ip.ipAddress → ¬Fresh config call.now other := by
      by_cases owner : Owner server.ipPool call
      · obtain ⟨j, given, same, there, client⟩ := owner.discovered config
        rw [found] at same
        cases same
        exact remembers.holder later ⟨owner.1, i, ip, there, rfl, client⟩
      · refine ⟨fun mac time last lasts => ?_, fun other among declines => ?_⟩
        · obtain ⟨other, among, acked, _, since⟩ := lastAck_mem last
          exact absurd (by unfold Fresh; omega) (orderly owner i ip found other among (Or.inl acked))
        · exact orderly owner i ip found other among (Or.inr declines)
    refine ⟨fun address promised => ?_, remembers.next later now (pool ▸ assigned) ?_ ?_ ?_ ?_⟩
    · have address : ip.ipAddress = address := by
        rcases sent with sent | sent
        · rw [sent] at promised
          simpa using promised
        · rw [sent] at promised
          simp at promised
      subst address
      exact ⟨nobodyElse.1, fun _ => nobodyElse.2⟩
    · intro address mac time last held lasts
      by_cases here : ip.ipAddress = address
      · subst here
        have client := nobodyElse.1 mac time last lasts
        subst client
        exact Or.inl (pool ▸ heldBy_self inside held.1)
      · exact Or.inl (pool ▸ (heldBy_assign placed inside proper here).mpr held)
    · intro address mac held
      rw [pool] at held
      by_cases here : ip.ipAddress = address
      · subst here
        exact Or.inr nobodyElse.2
      · exact Or.inl ((heldBy_assign placed inside proper here).mp held)
    · intro address acks
      rcases sent with sent | sent <;> rw [sent] at acks <;> cases acks
    · intro address declines
      rcases sent with sent | sent <;> rw [sent] at declines <;> cases declines

theorem init_remembers (config : Config) (macs : List Mac) (time : Nat) :
    Remembers config (dhcpInit config macs time) [] where
  placed := by
    refine ⟨List.length_replicate, fun i ip there => ?_⟩
    have free := (List.getElem?_replicate.symm.trans there)
    split at free <;> cases free
  earlier entry among := by cases among
  acked address mac time last := by cases last
  declined entry among := by cases among

theorem run_exclusive {server : Server} {past : List Entry} {calls : List Call}
    (remembers : Remembers config server past) (admitted : (dhcpServer config).Admitted server calls)
    (orderly : ∀ before call rest, calls = before ++ call :: rest →
      Orderly config (past ++ (dhcpServer config).history server before) ((dhcpServer config).run server before) call) :
    ∀ before call rest, calls = before ++ call :: rest →
      Exclusive config (past ++ (dhcpServer config).history server before)
        (call, (dhcpServer config).answer ((dhcpServer config).run server before) call) := by
  induction calls generalizing server past with
  | nil =>
    intro before call rest split
    simp at split
  | cons head tail ih =>
    obtain ⟨steady, remaining⟩ := admitted
    have first := orderly [] head tail rfl
    rw [Machine.history, List.append_nil, Machine.run_nil] at first
    obtain ⟨exclusive, still⟩ := step_exclusive remembers steady first
    have entries : ∀ before, past ++ (dhcpServer config).history server (head :: before) =
        past ++ [(head, (dhcpServer config).answer server head)] ++
          (dhcpServer config).history ((dhcpServer config).next server head) before := by
      intro before
      rw [Machine.history, List.append_assoc, List.singleton_append]
    have later := ih still remaining (fun before call rest split =>
      entries before ▸ orderly (head :: before) call rest (by rw [split, List.cons_append]))
    intro before call rest split
    rcases List.cons_eq_append_iff.mp split with ⟨rfl, same⟩ | ⟨others, rfl, same⟩
    · cases same
      rw [Machine.history, List.append_nil]
      exact exclusive
    · rw [entries]
      exact later others call rest same

/-- Packets are recorded in the order in which they are handled. -/
def InOrder (server : Server) (past : List Entry) : Prop :=
  (∀ entry ∈ past, entry.1.now ≤ server.time) ∧ past.Pairwise fun first second => first.1.now ≤ second.1.now

theorem InOrder.step (before : InOrder server past) (steady : Steady server call) :
    InOrder ((dhcpServer config).next server call) (past ++ [(call, (dhcpServer config).answer server call)]) := by
  have later := steady.later
  have now : ((dhcpServer config).next server call).time = call.now := serverStep_time config server call
  refine ⟨fun entry among => ?_, ?_⟩
  · rw [now]
    rcases List.mem_append.mp among with old | new
    · exact (before.1 entry old).trans later
    · rw [List.mem_singleton.mp new]
  · refine List.pairwise_append.mpr ⟨before.2, List.pairwise_singleton .., fun first old second new => ?_⟩
    rw [List.mem_singleton.mp new]
    exact (before.1 first old).trans later

theorem history_ordered {server : Server} {calls : List Call} (admitted : (dhcpServer config).Admitted server calls) :
    ((dhcpServer config).history server calls).Pairwise fun first second => first.1.now ≤ second.1.now := by
  have begins : InOrder server [] := ⟨fun entry among => (by cases among), List.Pairwise.nil⟩
  have reached : InOrder ((dhcpServer config).run server calls) ([] ++ (dhcpServer config).history server calls) :=
    (dhcpServer config).run_history_invariant (fun server past call before steady => before.step steady) begins admitted
  exact reached.2

end

instance decidableOwner (pool : Pool) (call : Call) : Decidable (Owner pool call) :=
  inferInstanceAs (Decidable (_ ∧ ¬(ipLookupByMAC pool call.clientMAC = none)))

instance decidableFresh (config : Config) (now : Nat) (entry : Entry) : Decidable (Fresh config now entry) :=
  inferInstanceAs (Decidable (_ < _))

instance decidableOrderly (config : Config) (past : List Entry) (server : Server) (call : Call) :
    Decidable (Orderly config past server call) :=
  decidable_of_iff ((match call.packetType with
    | .discover => decide (Owner server.ipPool call) || (discovered config server.ipPool call).all fun found =>
        decide (∀ entry ∈ past, entry.2 = .ack found.2.ipAddress ∨ entry.2 = .declined found.2.ipAddress →
          ¬Fresh config call.now entry)
    | .request => !server.registered call || decide (call.clientMAC ≠ broadcastMacAddress) &&
        (ipLookup server.ipPool call.wanted).all fun found => decide (found.2.clientID = call.clientMAC)
    | .decline => true) = true) (by
      unfold Orderly
      cases call.packetType with
      | discover =>
        simp only [Bool.or_eq_true, decide_eq_true_iff, Option.all_eq_true, Prod.forall, or_iff_not_imp_left]
      | request =>
        simp only [Bool.or_eq_true, Bool.not_eq_true', ← Bool.not_eq_true, Bool.and_eq_true, decide_eq_true_iff,
          Option.all_eq_true, Prod.forall, ← imp_iff_not_or]
      | decline => simp only)

theorem of_takes {calls : List Call} {holds : List Call → Call → Prop}
    (each : ∀ i, (inside : i < calls.length) → holds (calls.take i) calls[i]) :
    ∀ past call rest, calls = past ++ call :: rest → holds past call := by
  intro past call rest split
  subst split
  simpa using each past.length (by simp)

def threeAddresses : Config :=
  { subnet := 0xC0A81000, gateWay := 0xC0A81001, startingIP := 1, endingIP := 4, leaseTime := 10800,
    ending := by decide }

/-- A packet of a client, handled at once. -/
def packet (packetType : PacketType) (clientMAC : Mac) (requestedIP seconds : Nat) : Call :=
  { packetType := packetType, clientMAC := clientMAC, requestedIP := requestedIP, clientIP := 0,
    clock := fun _ => seconds, now := seconds, allocated := true, sends := true }

theorem steady_packet {server : Server} {packetType : PacketType} {clientMAC : Mac} {requestedIP seconds : Nat}
    (later : server.time ≤ seconds) : Steady server (packet packetType clientMAC requestedIP seconds) :=
  ⟨later, monotone_const, fun _ => le_refl seconds⟩

/-- Two clients, of which the second one declines what it was given and gets the address
when its time has passed. -/
def twoClients : List Call :=
  [packet .discover 1 0 10, packet .request 1 0xC0A81002 11, packet .discover 2 0 12, packet .decline 2 0xC0A81003 13,
    packet .request 1 0xC0A81002 5000, packet .discover 2 0xC0A81003 11000]

end BcmDhd.Dhcpd
