import Flannel.Vxlan.Device
import Mathlib.Data.List.Count

/-!
# A renewal that fails

Every renewal announces the lease again, and the entries are written again. Where a later one
cannot be written, the earlier ones are taken back, so a working peer loses entries. What becomes
of a request depends on how often it was made before, so that every combination of failures is
covered.
-/

namespace Flannel.Vxlan

open Backend Leases Net Program

deriving instance DecidableEq for Op

/-- Whether a request succeeds, by the number of times that it was made before. -/
abbrev Outcome := Op → Nat → Bool

def failed : (op : Op) → Res op
  | .neighSet _ => false
  | .neighDel _ => false
  | .routeReplace _ => false
  | .routeDel _ => false
  | .directRouting _ => none

def unreliable (direct : Net.IP → Option Bool) (outcome : Outcome) (state : Kernel × List Op)
    (op : Op) : Res op × (Kernel × List Op) :=
  if outcome op (state.2.count op) then
    ((netlink direct state.1 op).1, (netlink direct state.1 op).2, op :: state.2)
  else (failed op, state.1, op :: state.2)

def Succeeds (outcome : Outcome) (further : Nat) (op : Op) : Prop :=
  ∃ i ≤ further, outcome op i = true

/-! ## Attempts -/

/-- One of the attempts after the first `start` ones succeeds. -/
def attempts (outcomes : Nat → Bool) (start : Nat) : Nat → Bool
  | 0 => outcomes start
  | further + 1 => outcomes start || attempts outcomes (start + 1) further

theorem attempts_iff {outcomes : Nat → Bool} {start further : Nat} :
    attempts outcomes start further ↔ ∃ i ≤ further, outcomes (start + i) := by
  induction further generalizing start with
  | zero => simp [attempts]
  | succ further ih =>
    rw [attempts, Bool.or_eq_true, ih]
    constructor
    · rintro (first | ⟨i, inside, later⟩)
      · exact ⟨0, Nat.zero_le _, first⟩
      · exact ⟨i + 1, by omega, by rwa [← Nat.add_assoc, Nat.add_right_comm]⟩
    · rintro ⟨i, inside, succeeds⟩
      cases i with
      | zero => exact .inl succeeds
      | succ i => exact .inr ⟨i, by omega, by rwa [Nat.add_right_comm, Nat.add_assoc]⟩

section Attempts

variable {direct : Net.IP → Option Bool} {outcome : Outcome} {op : Op} {attempt : Proc Op Res Bool}
  {effect : Kernel → Kernel}

def IsRequest (direct : Net.IP → Option Bool) (outcome : Outcome) (attempt : Proc Op Res Bool)
    (op : Op) (effect : Kernel → Kernel) : Prop :=
  ∀ state, exec (unreliable direct outcome) state attempt =
    some (outcome op (state.2.count op),
      (if outcome op (state.2.count op) then effect state.1 else state.1), op :: state.2)

theorem exec_retry_unreliable (isRequest : IsRequest direct outcome attempt op effect)
    (kernel : Kernel) (requests : List Op) (further : Nat) :
    ∃ n, exec (unreliable direct outcome) (kernel, requests) (retry attempt further) =
      some (attempts (outcome op) (requests.count op) further,
        (if attempts (outcome op) (requests.count op) further then effect kernel else kernel),
        List.replicate n op ++ requests) := by
  induction further generalizing requests with
  | zero => exact ⟨1, isRequest (kernel, requests)⟩
  | succ further ih =>
    obtain ⟨n, ends⟩ := ih (op :: requests)
    rw [List.count_cons_self] at ends
    cases first : outcome op (requests.count op) with
    | true =>
      refine ⟨1, ?_⟩
      simp only [retry, exec_bind, isRequest (kernel, requests), attempts, first,
        Option.bind_some, Bool.true_or, if_true]
      rfl
    | false =>
      refine ⟨n + 1, ?_⟩
      simp only [retry, exec_bind, isRequest (kernel, requests), attempts, first,
        Option.bind_some, Bool.false_or, Bool.false_eq_true, if_false, ends]
      rw [List.replicate_succ', List.append_assoc]
      rfl

theorem count_replicate_append {op other : Op} (different : op ≠ other) (n : Nat)
    (requests : List Op) : (List.replicate n op ++ requests).count other = requests.count other := by
  rw [List.count_append, List.count_replicate, if_neg (by simpa using different), Nat.zero_add]

end Attempts

/-! ## The entries of one subnet -/

def Intact (index : Nat) (entry : Entry) (kernel : Kernel) : Prop :=
  ∃ tables, kernel index = some tables ∧ tables.Has entry

section Entries

variable {index : Nat} {entry : Entry} {kernel : Kernel} {change : Tables → Tables}

theorem intact_onLink_iff : Intact index entry (kernel.onLink index change) ↔
    ∃ tables, kernel index = some tables ∧ (change tables).Has entry := by
  simp [Intact, Kernel.onLink]

theorem intact_onLink (intact : Intact index entry kernel)
    (keeps : ∀ tables, tables.Has entry → (change tables).Has entry) :
    Intact index entry (kernel.onLink index change) := by
  obtain ⟨tables, isLink, has⟩ := intact
  exact intact_onLink_iff.mpr ⟨tables, isLink, keeps tables has⟩

theorem not_intact_onLink (removes : ∀ tables, ¬ (change tables).Has entry) :
    ¬ Intact index entry (kernel.onLink index change) := by
  rw [intact_onLink_iff]
  rintro ⟨tables, _, has⟩
  exact removes tables has

theorem has_setNeigh {n : Neigh} {tables : Tables}
    (ofEntry : n = ⟨n.linkIndex, false, entry.address, entry.mac⟩ ∨
      n = ⟨n.linkIndex, true, entry.publicIP, entry.mac⟩) (has : tables.Has entry) :
    (tables.setNeigh n true).Has entry := by
  obtain ⟨neigh, fdb, route⟩ := has
  rcases ofEntry with isNeigh | isFDB
  · rw [isNeigh]
    exact ⟨by simp [Tables.setNeigh], fdb, route⟩
  · rw [isFDB]
    exact ⟨neigh, by simp [Tables.setNeigh], route⟩

theorem not_has_delARP (tables : Tables) (linkIndex : Nat) :
    ¬ (tables.setNeigh ⟨linkIndex, false, entry.address, entry.mac⟩ false).Has entry := by
  intro has
  simpa [Tables.setNeigh] using has.neigh

theorem not_has_delFDB (tables : Tables) (linkIndex : Nat) :
    ¬ (tables.setNeigh ⟨linkIndex, true, entry.publicIP, entry.mac⟩ false).Has entry := by
  intro has
  simpa [Tables.setNeigh] using has.fdb

theorem has_setRoute {r : Route} {tables : Tables} (isDst : r.dst = some entry.network)
    (isGw : r.gw = some entry.address) (has : tables.Has entry) :
    (tables.setRoute r true).Has entry := by
  obtain ⟨neigh, fdb, route⟩ := has
  rw [Tables.setRoute, isDst, isGw]
  exact ⟨neigh, fdb, by simp⟩

end Entries

/-! ## The requests of one subnet -/

section Requests

variable (dev : VxlanDevice) (entry : Entry)

def addARPOp : Op :=
  .neighSet ⟨dev.linkIndex, false, entry.address, entry.mac⟩

def addFDBOp : Op :=
  .neighSet ⟨dev.linkIndex, true, entry.publicIP, entry.mac⟩

def vxlanRoute : Route where
  linkIndex := dev.linkIndex
  dst := some entry.network
  gw := some entry.address
  onlink := true

def routeReplaceOp : Op :=
  .routeReplace (vxlanRoute dev entry)

def delARPOp : Op :=
  .neighDel ⟨dev.linkIndex, false, entry.address, entry.mac⟩

def delFDBOp : Op :=
  .neighDel ⟨dev.linkIndex, true, entry.publicIP, entry.mac⟩

/-- Entries are written again and then taken back: the neighbour entry where the forwarding entry
cannot be written, and both where the route cannot. -/
def TakesBack (outcome : Outcome) (further : Nat) : Prop :=
  Succeeds outcome further (addARPOp dev entry) ∧
    ((¬ Succeeds outcome further (addFDBOp dev entry) ∧
        Succeeds outcome further (delARPOp dev entry)) ∨
      (Succeeds outcome further (addFDBOp dev entry) ∧
        ¬ Succeeds outcome further (routeReplaceOp dev entry) ∧
        (outcome (delARPOp dev entry) 0 = true ∨ outcome (delFDBOp dev entry) 0 = true)))

variable {dev entry} {direct : Net.IP → Option Bool} {outcome : Outcome}

theorem isRequest_neighSet (n : Neigh) :
    IsRequest direct outcome (neighSet n) (.neighSet n)
      (·.onLink n.linkIndex (·.setNeigh n true)) := by
  intro state
  change some (unreliable direct outcome state (.neighSet n)) = _
  rw [unreliable]
  split_ifs with succeeds
  · rw [succeeds]
    rfl
  · rw [Bool.eq_false_iff.mpr succeeds]
    rfl

theorem isRequest_neighDel (n : Neigh) :
    IsRequest direct outcome (neighDel n) (.neighDel n)
      (·.onLink n.linkIndex (·.setNeigh n false)) := by
  intro state
  change some (unreliable direct outcome state (.neighDel n)) = _
  rw [unreliable]
  split_ifs with succeeds
  · rw [succeeds]
    rfl
  · rw [Bool.eq_false_iff.mpr succeeds]
    rfl

theorem isRequest_routeReplace (r : Route) :
    IsRequest direct outcome (routeReplace r) (.routeReplace r)
      (·.onLink r.linkIndex (·.setRoute r true)) := by
  intro state
  change some (unreliable direct outcome state (.routeReplace r)) = _
  rw [unreliable]
  split_ifs with succeeds
  · rw [succeeds]
    rfl
  · rw [Bool.eq_false_iff.mpr succeeds]
    rfl

end Requests

/-! ## One event -/

def Leaves {α : Type} (direct : Net.IP → Option Bool) (outcome : Outcome) (P : Kernel → Prop)
    (state : Kernel × List Op) (program : Proc Op Res α) : Prop :=
  ∃ result kernel requests,
    exec (unreliable direct outcome) state program = some (result, kernel, requests) ∧ P kernel

section Event

variable {direct : Net.IP → Option Bool} {outcome : Outcome} {P : Kernel → Prop} {α : Type}
  {kernel : Kernel} {requests : List Op}

theorem leaves_ret {state : Kernel × List Op} {result : α} :
    Leaves direct outcome P state (.ret result : Proc Op Res α) ↔ P state.1 := by
  constructor
  · rintro ⟨_, _, _, returned, holds⟩
    cases returned
    exact holds
  · exact fun holds => ⟨result, state.1, state.2, rfl, holds⟩

theorem leaves_retry {op : Op} {attempt : Proc Op Res Bool} {effect : Kernel → Kernel}
    (isRequest : IsRequest direct outcome attempt op effect) (fresh : requests.count op = 0)
    (further : Nat) (next : Bool → Proc Op Res α) :
    ∃ n, Leaves direct outcome P (kernel, requests) (retry attempt further >>= next) ↔
      Leaves direct outcome P
        ((if attempts (outcome op) 0 further then effect kernel else kernel),
          List.replicate n op ++ requests)
        (next (attempts (outcome op) 0 further)) := by
  obtain ⟨n, ends⟩ := exec_retry_unreliable isRequest kernel requests further
  rw [fresh] at ends
  refine ⟨n, ?_⟩
  simp only [Leaves, exec_bind, ends, Option.bind_some]

theorem succeeds_iff {op : Op} {further : Nat} :
    Succeeds outcome further op ↔ attempts (outcome op) 0 further := by
  simp [Succeeds, attempts_iff]

variable {dev : VxlanDevice} {entry : Entry}

theorem leaves_delARP (intact : Intact dev.linkIndex entry kernel)
    (fresh : requests.count (delARPOp dev entry) = 0) (further : Nat) :
    Leaves direct outcome (Intact dev.linkIndex entry) (kernel, requests)
        (retry (delARP (some dev) (some entry.address) entry.mac) further >>= fun _ => pure false) ↔
      ¬ Succeeds outcome further (delARPOp dev entry) := by
  obtain ⟨n, first⟩ := @leaves_retry direct outcome (Intact dev.linkIndex entry) _ kernel
    requests _ _ _ (isRequest_neighDel ⟨dev.linkIndex, false, entry.address, entry.mac⟩) fresh further
    fun _ => pure false
  refine first.trans (leaves_ret.trans ?_)
  rw [succeeds_iff]
  change Intact dev.linkIndex entry
    (if attempts (outcome (delARPOp dev entry)) 0 further then _ else kernel) ↔ _
  split_ifs with succeeds
  · exact iff_of_false (not_intact_onLink fun tables => not_has_delARP tables dev.linkIndex)
      (not_not_intro succeeds)
  · exact iff_of_true intact succeeds

theorem leaves_delARP_delFDB (intact : Intact dev.linkIndex entry kernel)
    (freshARP : requests.count (delARPOp dev entry) = 0)
    (freshFDB : requests.count (delFDBOp dev entry) = 0) :
    Leaves direct outcome (Intact dev.linkIndex entry) (kernel, requests)
        (retry (delARP (some dev) (some entry.address) entry.mac) 0 >>= fun _ =>
          retry (delFDB (some dev) (some entry.publicIP) entry.mac) 0 >>= fun _ => pure false) ↔
      ¬ (outcome (delARPOp dev entry) 0 ∨ outcome (delFDBOp dev entry) 0) := by
  obtain ⟨n, first⟩ := @leaves_retry direct outcome (Intact dev.linkIndex entry) _ kernel
    requests _ _ _ (isRequest_neighDel ⟨dev.linkIndex, false, entry.address, entry.mac⟩) freshARP 0
    fun _ => retry (delFDB (some dev) (some entry.publicIP) entry.mac) 0 >>= fun _ => pure false
  have different : delARPOp dev entry ≠ delFDBOp dev entry := by simp [delARPOp, delFDBOp]
  obtain ⟨m, second⟩ := @leaves_retry direct outcome (Intact dev.linkIndex entry) _
    (if attempts (outcome (delARPOp dev entry)) 0 0 then
      kernel.onLink dev.linkIndex
        (·.setNeigh ⟨dev.linkIndex, false, entry.address, entry.mac⟩ false) else kernel)
    (List.replicate n (delARPOp dev entry) ++ requests) _ _ _
    (isRequest_neighDel ⟨dev.linkIndex, true, entry.publicIP, entry.mac⟩)
    ((count_replicate_append different n requests).trans freshFDB) 0 fun _ => pure false
  refine first.trans (second.trans (leaves_ret.trans ?_))
  change Intact dev.linkIndex entry (if outcome (delFDBOp dev entry) 0 then _ else
    if outcome (delARPOp dev entry) 0 then _ else kernel) ↔ _
  -- The last request that took effect removed one of the entries.
  by_cases fdb : outcome (delFDBOp dev entry) 0
  · rw [if_pos fdb]
    exact iff_of_false (not_intact_onLink fun tables => not_has_delFDB tables dev.linkIndex)
      (not_not_intro (.inr fdb))
  · rw [if_neg fdb]
    by_cases arp : outcome (delARPOp dev entry) 0
    · rw [if_pos arp]
      exact iff_of_false (not_intact_onLink fun tables => not_has_delARP tables dev.linkIndex)
        (not_not_intro (.inl arp))
    · rw [if_neg arp]
      exact iff_of_true intact (not_or.mpr ⟨arp, fdb⟩)

theorem fresh_append {op other : Op} (different : op ≠ other) (fresh : requests.count other = 0)
    (n : Nat) : (List.replicate n op ++ requests).count other = 0 :=
  (count_replicate_append different n requests).trans fresh

def addRoute (dev : VxlanDevice) (entry : Entry) (further : Nat) : Proc Op Res Bool := do
  if ← retry (routeReplace (vxlanRoute dev entry)) further then pure true
  else
    let _ ← retry (delARP (some dev) (some entry.address) entry.mac) 0
    let _ ← retry (delFDB (some dev) (some entry.publicIP) entry.mac) 0
    pure false

theorem leaves_addRoute (intact : Intact dev.linkIndex entry kernel)
    (freshRoute : requests.count (routeReplaceOp dev entry) = 0)
    (freshARP : requests.count (delARPOp dev entry) = 0)
    (freshFDB : requests.count (delFDBOp dev entry) = 0) (further : Nat) :
    Leaves direct outcome (Intact dev.linkIndex entry) (kernel, requests)
        (addRoute dev entry further) ↔
      ¬ (¬ Succeeds outcome further (routeReplaceOp dev entry) ∧
        (outcome (delARPOp dev entry) 0 ∨ outcome (delFDBOp dev entry) 0)) := by
  obtain ⟨n, first⟩ := @leaves_retry direct outcome (Intact dev.linkIndex entry) _ kernel
    requests (routeReplaceOp dev entry) _ _ (isRequest_routeReplace _) freshRoute further _
  refine Iff.trans first ?_
  rw [succeeds_iff]
  cases route : attempts (outcome (routeReplaceOp dev entry)) 0 further with
  | true =>
    refine iff_of_true (leaves_ret.mpr ?_) fun fails => fails.1 rfl
    exact intact_onLink intact fun tables => has_setRoute rfl rfl
  | false =>
    rw [and_iff_right Bool.false_ne_true]
    exact leaves_delARP_delFDB intact
      (fresh_append (by simp [routeReplaceOp, delARPOp]) freshARP n)
      (fresh_append (by simp [routeReplaceOp, delFDBOp]) freshFDB n)

def addForwarding (dev : VxlanDevice) (entry : Entry) (further : Nat) : Proc Op Res Bool := do
  if ← retry (addFDB (some dev) (some entry.publicIP) entry.mac) further then
    addRoute dev entry further
  else
    let _ ← retry (delARP (some dev) (some entry.address) entry.mac) further
    pure false

theorem leaves_addForwarding (intact : Intact dev.linkIndex entry kernel)
    (fresh : ∀ op, op ≠ addARPOp dev entry → requests.count op = 0) (further : Nat) :
    Leaves direct outcome (Intact dev.linkIndex entry) (kernel, requests)
        (addForwarding dev entry further) ↔
      ¬ ((¬ Succeeds outcome further (addFDBOp dev entry) ∧
          Succeeds outcome further (delARPOp dev entry)) ∨
        (Succeeds outcome further (addFDBOp dev entry) ∧
          ¬ Succeeds outcome further (routeReplaceOp dev entry) ∧
          (outcome (delARPOp dev entry) 0 ∨ outcome (delFDBOp dev entry) 0))) := by
  have freshFDB := fresh (addFDBOp dev entry) (by simp [addFDBOp, addARPOp])
  have freshRoute := fresh (routeReplaceOp dev entry) (by simp [routeReplaceOp, addARPOp])
  have freshDelARP := fresh (delARPOp dev entry) (by simp [delARPOp, addARPOp])
  have freshDelFDB := fresh (delFDBOp dev entry) (by simp [delFDBOp, addARPOp])
  obtain ⟨n, first⟩ := @leaves_retry direct outcome (Intact dev.linkIndex entry) _ kernel
    requests (addFDBOp dev entry) _ _ (isRequest_neighSet _) freshFDB further _
  refine Iff.trans first ?_
  rw [succeeds_iff]
  cases fdb : attempts (outcome (addFDBOp dev entry)) 0 further with
  | true =>
    have kept := intact_onLink intact fun tables =>
      @has_setNeigh entry ⟨dev.linkIndex, true, entry.publicIP, entry.mac⟩ tables (.inr rfl)
    rw [and_iff_right rfl, or_iff_right fun fails => fails.1 rfl]
    exact leaves_addRoute kept (fresh_append (by simp [addFDBOp, routeReplaceOp]) freshRoute n)
      (fresh_append (by simp [addFDBOp, delARPOp]) freshDelARP n)
      (fresh_append (by simp [addFDBOp, delFDBOp]) freshDelFDB n) further
  | false =>
    rw [and_iff_right Bool.false_ne_true, or_iff_left fun succeeds => Bool.false_ne_true succeeds.1]
    exact leaves_delARP intact (fresh_append (by simp [addFDBOp, delARPOp]) freshDelARP n)
      further

variable {nw : Network} {lease : Lease} {attrs : VxlanLeaseAttrs}

theorem addSubnet_eq (isDev : nw.dev = some dev) (isEntry : entryOf .ipv4 lease = some entry)
    (isMac : attrs.vtepMAC = entry.mac) (further : Nat) :
    addSubnet further further 0 nw .ipv4 lease (preparedFor dev attrs entry) =
      (retry (addARP (some dev) (some entry.address) entry.mac) further >>= fun written =>
        if written then addForwarding dev entry further else pure false) := by
  obtain ⟨_, _, _, isAddress, _, isPublic⟩ := entryOf_eq_some_iff.mp isEntry
  have isDevice : nw.device .ipv4 = some dev := isDev
  simp only [addSubnet, preparedFor, Bool.false_eq_true, if_false, isDevice, isAddress, isPublic,
    isMac]
  rfl

theorem leaves_addSubnet (isDev : nw.dev = some dev) (isEntry : entryOf .ipv4 lease = some entry)
    (isMac : attrs.vtepMAC = entry.mac) (intact : Intact dev.linkIndex entry kernel)
    (further : Nat) :
    Leaves direct outcome (Intact dev.linkIndex entry) (kernel, [])
        (addSubnet further further 0 nw .ipv4 lease (preparedFor dev attrs entry)) ↔
      ¬ TakesBack dev entry outcome further := by
  obtain ⟨n, first⟩ := @leaves_retry direct outcome (Intact dev.linkIndex entry) _ kernel []
    (addARPOp dev entry) _ _ (isRequest_neighSet _) rfl further fun written =>
      if written then addForwarding dev entry further else pure false
  rw [addSubnet_eq isDev isEntry isMac]
  refine Iff.trans first ?_
  rw [TakesBack, succeeds_iff]
  cases arp : attempts (outcome (addARPOp dev entry)) 0 further with
  | true =>
    have kept := intact_onLink intact fun tables =>
      @has_setNeigh entry ⟨dev.linkIndex, false, entry.address, entry.mac⟩ tables (.inl rfl)
    rw [and_iff_right rfl]
    refine leaves_addForwarding kept (fun op other => ?_) further
    exact fresh_append other.symm rfl n
  | false =>
    exact iff_of_true (leaves_ret.mpr intact) fun takesBack => Bool.false_ne_true takesBack.1

theorem leaves_bind_ret {β : Type} {state : Kernel × List Op} {program : Proc Op Res α}
    {next : α → Proc Op Res β} (returns : ∀ result, ∃ value, next result = .ret value) :
    Leaves direct outcome P state (program >>= next) ↔ Leaves direct outcome P state program := by
  simp only [Leaves, exec_bind, Option.bind_eq_some_iff]
  constructor
  · rintro ⟨_, _, _, ⟨⟨result, later⟩, ends, returned⟩, holds⟩
    obtain ⟨value, isReturn⟩ := returns result
    simp only [isReturn] at returned
    cases returned
    exact ⟨_, _, _, ends, holds⟩
  · rintro ⟨result, later, requests, ends, holds⟩
    obtain ⟨value, isReturn⟩ := returns result
    exact ⟨value, later, requests, ⟨_, ends, by rw [isReturn]; rfl⟩, holds⟩

structure Plain (nw : Network) (dev : VxlanDevice) (lease : Lease) (entry : Entry) : Prop where
  isDev : nw.dev = some dev
  notDirect : dev.directRouting = false
  backendType : lease.attrs.backendType = "vxlan"
  enableIPv4 : lease.enableIPv4 = true
  enableIPv6 : lease.enableIPv6 = false
  isEntry : entryOf .ipv4 lease = some entry

theorem prepare_eq (plain : Plain nw dev lease entry)
    (decoded : unmarshalAttrs (Family.ipv4.backendData lease.attrs) = some attrs) :
    prepare nw .ipv4 lease = pure (some (preparedFor dev attrs entry)) := by
  obtain ⟨_, _, _, isAddress, isNetwork, isPublic⟩ := entryOf_eq_some_iff.mp plain.isEntry
  have enabled : Family.ipv4.enabled lease := plain.enableIPv4
  have isDevice : nw.device .ipv4 = some dev := plain.isDev
  simp only [prepare, enabled, isDevice, decoded, isSet_of_address isAddress, isAddress, isNetwork,
    isPublic, plain.notDirect, if_true, Bool.false_eq_true, if_false]
  rfl

theorem leaves_handleSubnetEvents (plain : Plain nw dev lease entry)
    (decoded : unmarshalAttrs (Family.ipv4.backendData lease.attrs) = some attrs) (further : Nat)
    (state : Kernel × List Op) :
    Leaves direct outcome P state (handleSubnetEvents further nw [⟨.added, lease⟩]) ↔
      Leaves direct outcome P state
        (addSubnet further further 0 nw .ipv4 lease (preparedFor dev attrs entry)) := by
  have enabled4 : Family.ipv4.enabled lease := plain.enableIPv4
  have enabled6 : Family.ipv6.enabled lease = false := plain.enableIPv6
  have unprepared : prepare nw .ipv6 lease = pure (some {}) := by
    simp only [prepare, enabled6]
  have body : handleSubnetEvent further nw ⟨.added, lease⟩ =
      (addSubnet further further 0 nw .ipv4 lease (preparedFor dev attrs entry) >>= fun written =>
        if written then (pure true >>= fun _ => pure ()) else pure ()) := by
    simp only [handleSubnetEvent, plain.backendType, ne_eq, not_true_eq_false, if_false,
      prepare_eq plain decoded, unprepared, Prog.pure_eq_ret, Prog.ret_bind, dispatch, ifEnabled,
      enabled4, enabled6, if_true, Bool.false_eq_true]
  have batch : handleSubnetEvents further nw [⟨.added, lease⟩] =
      (handleSubnetEvent further nw ⟨.added, lease⟩ >>= fun _ => pure ()) :=
    rfl
  have body_iff : Leaves direct outcome P state (handleSubnetEvents further nw [⟨.added, lease⟩]) ↔
      Leaves direct outcome P state (handleSubnetEvent further nw ⟨.added, lease⟩) := by
    rw [batch]
    exact leaves_bind_ret fun _ => ⟨(), rfl⟩
  rw [body_iff, body]
  apply leaves_bind_ret
  intro written
  cases written <;> exact ⟨(), rfl⟩

/-- A renewal leaves the entries of an intact subnet in place exactly if the requests do not fail in
a way that takes entries back. -/
theorem renewal_keeps_iff (plain : Plain nw dev lease entry)
    (intact : Intact dev.linkIndex entry kernel) (further : Nat) :
    Leaves direct outcome (Intact dev.linkIndex entry) (kernel, [])
        (handleSubnetEvents further nw [⟨.added, lease⟩]) ↔
      ¬ TakesBack dev entry outcome further := by
  obtain ⟨attrs, decoded, isMac, _⟩ := entryOf_eq_some_iff.mp plain.isEntry
  rw [leaves_handleSubnetEvents plain decoded]
  exact leaves_addSubnet plain.isDev plain.isEntry isMac intact further

end Event

def peerLease : Lease :=
  vxlanLease 0x0a010200 0xc0a80002 "02:00:00:00:00:02"

theorem plain_peerLease : Plain (ipv4Network 7) ⟨7, false⟩ peerLease (entryFor peerLease) :=
  ⟨rfl, rfl, rfl, rfl, rfl, by decide +kernel⟩

def peerKernel : Kernel :=
  Function.update (fun _ => none) 7 (some (Tables.empty.install (entryFor peerLease)))

theorem intact_peerKernel : Intact 7 (entryFor peerLease) peerKernel := by
  refine ⟨Tables.empty.install (entryFor peerLease), by simp [peerKernel], ?_⟩
  constructor <;> simp [Tables.install]

theorem renewal_keeps_of_failures :
    Leaves (fun _ => none) (fun op _ => op == addARPOp ⟨7, false⟩ (entryFor peerLease) ||
        op == addFDBOp ⟨7, false⟩ (entryFor peerLease)) (Intact 7 (entryFor peerLease)) (peerKernel, [])
      (handleSubnetEvents 9 (ipv4Network 7) [⟨.added, peerLease⟩]) := by
  refine (renewal_keeps_iff plain_peerLease intact_peerKernel 9).mpr ?_
  rintro ⟨_, ⟨_, i, _, removed⟩ | ⟨_, _, removed | removed⟩⟩
  · change (delARPOp _ _ == _ || delARPOp _ _ == _) = true at removed
    exact absurd removed (by decide)
  · exact absurd removed (by decide)
  · exact absurd removed (by decide)

/-- A renewal during which only the route cannot be written: the peer loses its neighbour entry and its
forwarding entry. -/
theorem renewal_tears_down :
    ¬ Leaves (fun _ => none) (fun op _ => op != routeReplaceOp ⟨7, false⟩ (entryFor peerLease))
      (Intact 7 (entryFor peerLease)) (peerKernel, [])
      (handleSubnetEvents 9 (ipv4Network 7) [⟨.added, peerLease⟩]) := by
  obtain ⟨attrs, decoded, isMac, _⟩ := entryOf_eq_some_iff.mp plain_peerLease.isEntry
  rw [leaves_handleSubnetEvents plain_peerLease decoded,
    leaves_addSubnet plain_peerLease.isDev plain_peerLease.isEntry isMac intact_peerKernel,
    not_not]
  refine ⟨⟨0, by decide, by decide⟩, .inr ⟨⟨0, by decide, by decide⟩, ?_, .inl (by decide)⟩⟩
  rintro ⟨i, _, succeeds⟩
  simp at succeeds

end Flannel.Vxlan
