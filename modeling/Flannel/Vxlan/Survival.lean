import Flannel.Vxlan.Kernel

/-!
# Nil pointers of the vxlan backend

The device of a family that is not enabled is nil. The handler skips the local variables of such a
family, but not the switch on the type of the event, so a lease with it is not survived; one whose
backend data does not decode is dropped before.
-/

namespace Flannel.Vxlan

open Backend Leases Net Program

section Parts

variable {nw : Network} {f : Family} {lease : Lease} {dev : VxlanDevice} {ip publicIP : Net.IP}
  {vars : Prepared} {further afterFDB afterRoute : Nat}

theorem not_reaches_addSubnet {fault : Fault} (isDev : nw.device f = some dev)
    (isAddress : f.address lease = some ip) (isPublic : f.publicIP lease.attrs = some publicIP) :
    ¬ Reaches Any (addSubnet further afterFDB afterRoute nw f lease vars) (.inl fault) := by
  simp only [addSubnet, isDev, isAddress, isPublic]
  split
  · simp [routeReplace]
  · simp [addARP, addFDB, delARP, delFDB, neighbor, neighSet, neighDel, routeReplace,
      Bool.exists_bool]

theorem not_reaches_removeSubnet {fault : Fault} (isDev : nw.device f = some dev)
    (isAddress : f.address lease = some ip) (isPublic : f.publicIP lease.attrs = some publicIP) :
    ¬ Reaches Any (removeSubnet further nw f lease vars) (.inl fault) := by
  simp only [removeSubnet, isDev, isAddress, isPublic]
  split
  · simp [routeDel]
  · simp [delARP, delFDB, neighbor, neighDel, routeDel]

theorem returns_addSubnet (isDev : nw.device f = some dev)
    (isAddress : f.address lease = some ip) (isPublic : f.publicIP lease.attrs = some publicIP) :
    Returns Any (addSubnet further afterFDB afterRoute nw f lease vars) true := by
  simp only [addSubnet, isDev, isAddress, isPublic]
  have replaced : ∀ route, Returns Any (retry (routeReplace route) further) true := fun route =>
    Returns.retry (returns_ask.mpr trivial) further
  split
  · exact replaced _
  · refine (returns_bind _ _ _).mpr ⟨true, Returns.retry ?_ further, ?_⟩
    · simp [addARP, neighbor, neighSet, Any]
    · refine (returns_bind _ _ _).mpr ⟨true, Returns.retry ?_ further, ?_⟩
      · simp [addFDB, neighbor, neighSet, Any]
      · exact (returns_bind _ _ _).mpr ⟨true, replaced _, rfl⟩

theorem returns_removeSubnet (isDev : nw.device f = some dev)
    (isAddress : f.address lease = some ip) (isPublic : f.publicIP lease.attrs = some publicIP) :
    Returns Any (removeSubnet further nw f lease vars) () := by
  simp only [removeSubnet, isDev, isAddress, isPublic]
  have deleted : ∀ route, Returns Any (retry (routeDel route) further) true := fun route =>
    Returns.retry (returns_ask.mpr trivial) further
  split
  · exact (returns_bind _ _ _).mpr ⟨true, deleted _, rfl⟩
  · refine (returns_bind _ _ _).mpr ⟨true, Returns.retry ?_ further, ?_⟩
    · simp [delARP, neighbor, neighDel, Any]
    · refine (returns_bind _ _ _).mpr ⟨true, Returns.retry ?_ further, ?_⟩
      · simp [delFDB, neighbor, neighDel, Any]
      · exact (returns_bind _ _ _).mpr ⟨true, deleted _, rfl⟩

theorem reaches_addSubnet (noDev : nw.device f = none) :
    Reaches Any (addSubnet further afterFDB afterRoute nw f lease {}) (.inl .nilPointer) := by
  simp [addSubnet, noDev, addARP, neighbor]

theorem reaches_removeSubnet (noDev : nw.device f = none) :
    Reaches Any (removeSubnet further nw f lease {}) (.inl .nilPointer) := by
  simp [removeSubnet, noDev, delARP, neighbor]

theorem reaches_prepare (complete : Complete lease) :
    Reaches Any (prepare nw f lease) (.inl .nilPointer) ↔
      f.enabled lease ∧ nw.device f ≠ none ∧
        unmarshalAttrs (f.backendData lease.attrs) ≠ none ∧ f.publicIP lease.attrs = none := by
  cases enabled : f.enabled lease with
  | false => simp [prepare, enabled]
  | true =>
    have isSet := complete.isSet enabled
    obtain ⟨network, isNetwork⟩ := complete.exists_network isSet
    obtain ⟨address, isAddress⟩ := complete.exists_address isSet
    cases isDev : nw.device f with
    | none => simp [prepare, enabled, isDev]
    | some dev =>
      cases decoded : unmarshalAttrs (f.backendData lease.attrs) with
      | none => simp [prepare, enabled, isDev, decoded]
      | some attrs =>
        simp only [prepare, enabled, isDev, decoded, isSet, isNetwork, isAddress, if_true]
        cases dev.directRouting <;> simp [directRouting]

theorem prepare_of_none (noDev : f.enabled lease → nw.device f = none) :
    prepare nw f lease = .ret (some {}) := by
  cases enabled : f.enabled lease with
  | false => simp [prepare, enabled]
  | true => simp [prepare, enabled, noDev enabled]

theorem exists_returns_prepare (complete : Complete lease)
    (decodes : f.enabled lease → nw.device f ≠ none →
      unmarshalAttrs (f.backendData lease.attrs) ≠ none)
    (hasPublic : f.enabled lease → nw.device f ≠ none → f.publicIP lease.attrs ≠ none) :
    ∃ vars, Returns Any (prepare nw f lease) (some vars) ∧ (nw.device f = none → vars = {}) := by
  by_cases bare : f.enabled lease → nw.device f = none
  · exact ⟨{}, by rw [prepare_of_none bare]; rfl, fun _ => rfl⟩
  · obtain ⟨enabled, hasDev⟩ := Classical.not_imp.mp bare
    have isSet := complete.isSet enabled
    obtain ⟨network, isNetwork⟩ := complete.exists_network isSet
    obtain ⟨address, isAddress⟩ := complete.exists_address isSet
    obtain ⟨dev, isDev⟩ := Option.ne_none_iff_exists'.mp hasDev
    obtain ⟨attrs, decoded⟩ := Option.ne_none_iff_exists'.mp (decodes enabled hasDev)
    obtain ⟨publicIP, isPublic⟩ := Option.ne_none_iff_exists'.mp (hasPublic enabled hasDev)
    refine ⟨preparedFor dev attrs ⟨address, network, attrs.vtepMAC, publicIP⟩, ?_, by simp [isDev]⟩
    simp only [prepare, enabled, isDev, decoded, isSet, isNetwork, isAddress, isPublic, if_true]
    cases dev.directRouting with
    | false => simp [preparedFor]
    | true => exact ⟨none, trivial, rfl⟩

end Parts

/-! ### The handler -/

section Handler

variable {nw : Network} {event : Event} {v4 v6 : Prepared} {further : Nat}

theorem not_reaches_dispatch {fault : Fault} (complete : Complete event.lease)
    (present : ∀ f : Family, f.enabled event.lease →
      nw.device f ≠ none ∧ f.publicIP event.lease.attrs ≠ none) :
    ¬ Reaches Any (dispatch further nw event v4 v6) (.inl fault) := by
  have parts : ∀ (f : Family) (afterFDB afterRoute : Nat) (vars : Prepared),
      ¬ Reaches Any (ifEnabled f event.lease true
        (addSubnet further afterFDB afterRoute nw f event.lease vars)) (.inl fault) ∧
      ¬ Reaches Any (ifEnabled f event.lease ()
        (removeSubnet further nw f event.lease vars)) (.inl fault) := by
    intro f afterFDB afterRoute vars
    cases enabled : f.enabled event.lease with
    | false => simp [ifEnabled, enabled]
    | true =>
      obtain ⟨dev, isDev⟩ := Option.ne_none_iff_exists'.mp (present f enabled).1
      obtain ⟨publicIP, isPublic⟩ := Option.ne_none_iff_exists'.mp (present f enabled).2
      obtain ⟨address, isAddress⟩ := complete.exists_address (complete.isSet enabled)
      simp only [ifEnabled, enabled, if_true]
      exact ⟨not_reaches_addSubnet isDev isAddress isPublic,
        not_reaches_removeSubnet isDev isAddress isPublic⟩
  cases type : event.type with
  | added =>
    simp only [dispatch, type, reaches_bind, (parts _ _ _ _).1, false_or, not_exists, not_and]
    rintro (_ | _) _
    · simp
    · simp [(parts _ _ _ _).1]
  | removed => simp [dispatch, type, (parts _ 0 0 _).2]

theorem reaches_dispatch (bare4 : nw.device .ipv4 = none → v4 = {})
    (bare6 : nw.device .ipv6 = none → v6 = {})
    {f : Family} (enabled : f.enabled event.lease) (noDev : nw.device f = none) :
    Reaches Any (dispatch further nw event v4 v6) (.inl .nilPointer) := by
  by_cases bad4 : Family.ipv4.enabled event.lease ∧ nw.device .ipv4 = none
  · -- the IPv4 part comes first
    obtain rfl := bare4 bad4.2
    cases type : event.type with
    | added =>
      simp only [dispatch, type, ifEnabled, bad4.1, if_true, reaches_bind]
      exact .inl (reaches_addSubnet bad4.2)
    | removed =>
      simp only [dispatch, type, ifEnabled, bad4.1, if_true, reaches_bind]
      exact .inl (reaches_removeSubnet bad4.2)
  · -- the IPv4 part is passed
    have isIPv6 : f = .ipv6 := by
      cases f with
      | ipv4 => exact absurd ⟨enabled, noDev⟩ bad4
      | ipv6 => rfl
    subst isIPv6
    obtain rfl := bare6 noDev
    have passes : Returns Any (ifEnabled .ipv4 event.lease true
          (addSubnet further further 0 nw .ipv4 event.lease v4)) true ∧
        Returns Any (ifEnabled .ipv4 event.lease ()
          (removeSubnet further nw .ipv4 event.lease v4)) () := by
      cases enabled4 : Family.ipv4.enabled event.lease with
      | false => simp [ifEnabled, enabled4]
      | true =>
        obtain ⟨dev, isDev⟩ := Option.ne_none_iff_exists'.mp fun none4 => bad4 ⟨enabled4, none4⟩
        simp only [ifEnabled, enabled4, if_true]
        exact ⟨returns_addSubnet isDev rfl rfl, returns_removeSubnet isDev rfl rfl⟩
    cases type : event.type with
    | added =>
      simp only [dispatch, type, reaches_bind]
      refine .inr ⟨true, passes.1, ?_⟩
      simp only [if_true, reaches_bind, ifEnabled, enabled]
      exact .inl (reaches_addSubnet noDev)
    | removed =>
      simp only [dispatch, type, reaches_bind]
      refine .inr ⟨(), passes.2, ?_⟩
      simp only [ifEnabled, enabled, if_true]
      exact reaches_removeSubnet noDev

theorem not_reaches_of_ignored (complete : Complete event.lease)
    (ignored : Ignored nw event.lease) :
    ¬ Reaches Any (handleSubnetEvent further nw event) (.inl .nilPointer) := by
  by_cases type : event.lease.attrs.backendType = "vxlan"
  · obtain ⟨f, enabled, hasDev, undecodable⟩ := ignored.resolve_left (not_not_intro type)
    obtain ⟨dev, isDev⟩ := Option.ne_none_iff_exists'.mp hasDev
    have drops : prepare nw f event.lease = .ret none := by
      simp [prepare, enabled, isDev, undecodable]
    cases f with
    | ipv4 => simp [handleSubnetEvent, type, drops]
    | ipv6 =>
      have first : ¬ Reaches Any (prepare nw .ipv4 event.lease) (.inl .nilPointer) := by
        simp [reaches_prepare complete, Family.publicIP]
      simp only [handleSubnetEvent, type, drops, ne_eq, not_true, if_false, reaches_bind, first,
        false_or, not_exists, not_and]
      rintro (_ | vars) _ <;> simp
  · simp [handleSubnetEvent, type]

theorem not_reaches_of_present (complete : Complete event.lease)
    (present : ∀ f : Family, f.enabled event.lease →
      nw.device f ≠ none ∧ f.publicIP event.lease.attrs ≠ none) :
    ¬ Reaches Any (handleSubnetEvent further nw event) (.inl .nilPointer) := by
  have quiet : ∀ f, ¬ Reaches Any (prepare nw f event.lease) (.inl .nilPointer) := by
    intro f
    rw [reaches_prepare complete]
    rintro ⟨enabled, _, _, noPublic⟩
    exact (present f enabled).2 noPublic
  rw [handleSubnetEvent]
  split
  · simp
  · simp only [reaches_bind, quiet, false_or, not_exists, not_and]
    rintro (_ | v4) _
    · simp
    · simp only [reaches_bind, quiet, false_or, not_exists, not_and]
      rintro (_ | v6) _
      · simp
      · exact not_reaches_dispatch complete present

/-- The vxlan handler meets a nil pointer exactly at a lease that is not dropped and has
a family without a device or without a public address. -/
theorem reaches_handleSubnetEvents (complete : Complete event.lease) :
    Reaches Any (handleSubnetEvents further nw [event]) (.inl .nilPointer) ↔
      ¬ Ignored nw event.lease ∧ ∃ f : Family, f.enabled event.lease ∧
        (nw.device f = none ∨ f.publicIP event.lease.attrs = none) := by
  rw [handleSubnetEvents, reaches_each_singleton]
  constructor
  · intro reaches
    refine ⟨fun ignored => not_reaches_of_ignored complete ignored reaches, ?_⟩
    by_contra none_
    refine not_reaches_of_present complete (fun f enabled => ?_) reaches
    exact not_or.mp fun bad => none_ ⟨f, enabled, bad⟩
  · rintro ⟨notIgnored, f, enabled, bad⟩
    obtain ⟨type, decodable⟩ := not_or.mp notIgnored
    have decodes : ∀ g : Family, g.enabled event.lease → nw.device g ≠ none →
        unmarshalAttrs (g.backendData event.lease.attrs) ≠ none :=
      fun g on hasDev undecodable => decodable ⟨g, on, hasDev, undecodable⟩
    obtain ⟨v4, prepares4, bare4⟩ := exists_returns_prepare complete (decodes .ipv4)
      fun _ _ => Option.some_ne_none _
    rw [handleSubnetEvent, if_neg type, reaches_bind]
    refine .inr ⟨some v4, prepares4, ?_⟩
    by_cases missing : Family.ipv6.enabled event.lease ∧ nw.device .ipv6 ≠ none ∧
        Family.ipv6.publicIP event.lease.attrs = none
    · refine (reaches_bind _ _).mpr (.inl ((reaches_prepare complete).mpr ?_))
      exact ⟨missing.1, missing.2.1, decodes .ipv6 missing.1 missing.2.1, missing.2.2⟩
    · obtain ⟨v6, prepares6, bare6⟩ := exists_returns_prepare complete (decodes .ipv6)
        fun on hasDev noPublic => missing ⟨on, hasDev, noPublic⟩
      have noDev : nw.device f = none := by
        by_contra hasDev
        cases f with
        | ipv4 => exact bad.elim hasDev (Option.some_ne_none _)
        | ipv6 => exact missing ⟨enabled, hasDev, bad.resolve_left hasDev⟩
      exact (reaches_bind _ _).mpr (.inr ⟨some v6, prepares6,
        reaches_dispatch bare4 bare6 enabled noDev⟩)

end Handler

end Flannel.Vxlan
