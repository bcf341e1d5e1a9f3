import Mathlib.Data.List.Induction
import MultidropBus.Identity.Basic

/-!
# Group memberships

A station joins groups one after another, and an attempt that is refused leaves it as it was. Which
groups it is in after any number of attempts depends on the attempts alone: the first four different
groups among them, in the order in which they first appear (`firstGroups`). The next attempt extends
both sides of that equation in the same way (`firstGroups_snoc`, `Identity.tryJoin_members`). What
is refused, what is accepted and whether the identity is valid can then be read off the attempts.
-/

namespace MultidropBus

/-! ### The groups among some addresses -/

/-- The different groups among some addresses, in the order in which they first appear. -/
def differentGroups (attempts : List Address) : List Address :=
  (attempts.filter Address.isGroup).eraseDups

/-- The first four of them. -/
def firstGroups (attempts : List Address) : List Address :=
  (differentGroups attempts).take maxGroups

theorem Address.isGroup_iff {a : Address} : a.isGroup = true ↔ 50 ≤ a ∧ a ≤ 100 := by
  rw [isGroup, Bool.and_eq_true, decide_eq_true_iff, decide_eq_true_iff]
  rfl

theorem differentGroups_snoc (attempts : List Address) (group : Address) :
    differentGroups (attempts ++ [group])
      = if group.isGroup = true ∧ group ∉ differentGroups attempts then
          differentGroups attempts ++ [group]
        else differentGroups attempts := by
  have honly : [group].eraseDups = [group] := by rw [List.eraseDups_cons]; rfl
  rw [differentGroups, List.filter_append, List.eraseDups_append]
  cases hgroup : group.isGroup with
  | false => simp [differentGroups, hgroup, List.removeAll]
  | true =>
    by_cases hmem : group ∈ attempts <;>
      simp [differentGroups, hgroup, hmem, honly, List.removeAll]

theorem differentGroups_nodup (attempts : List Address) : (differentGroups attempts).Nodup := by
  induction attempts using List.reverseRecOn with
  | nil => exact List.nodup_nil
  | append_singleton earlier group ih =>
    rw [differentGroups_snoc]
    split
    case isTrue hnew =>
      refine List.nodup_append.2 ⟨ih, List.nodup_cons.2 ⟨nofun, List.nodup_nil⟩, ?_⟩
      rintro a ha b hb rfl
      exact hnew.2 (List.mem_singleton.1 hb ▸ ha)
    case isFalse => exact ih

/-- One more address counts if it is a group, a new one, and one of the first four. -/
theorem firstGroups_snoc (attempts : List Address) (group : Address) :
    firstGroups (attempts ++ [group])
      = if group.isGroup = true ∧ group ∉ firstGroups attempts
            ∧ (firstGroups attempts).length < maxGroups then
          firstGroups attempts ++ [group]
        else firstGroups attempts := by
  rw [firstGroups, firstGroups, differentGroups_snoc, List.length_take]
  rcases Nat.lt_or_ge (differentGroups attempts).length maxGroups with hroom | hfull
  · have hall : (differentGroups attempts).take maxGroups = differentGroups attempts :=
      List.take_of_length_le (Nat.le_of_lt hroom)
    have hlt : min maxGroups (differentGroups attempts).length < maxGroups :=
      Nat.lt_of_le_of_lt (Nat.min_le_right _ _) hroom
    simp only [hall, hlt, and_true]
    split
    · exact List.take_of_length_le (by rw [List.length_append]; exact hroom)
    · exact hall
  · -- The first four are there already, whatever comes behind them.
    have hnot : ¬ min maxGroups (differentGroups attempts).length < maxGroups := by omega
    simp only [hnot, and_false, if_false]
    split
    · exact List.take_append_of_le_length hfull
    · rfl

theorem isGroup_of_mem_firstGroups {attempts : List Address} {group : Address}
    (h : group ∈ firstGroups attempts) : group.isGroup = true :=
  (List.mem_filter.1 (List.mem_eraseDups.1 (List.mem_of_mem_take h))).2

/-! ### Joining -/

/-- There is room behind fewer than four members. -/
theorem GroupList.push?_cases (g : GroupList) (a : Address) :
    g.members.length = maxGroups ∧ g.push? a = none
      ∨ g.members.length < maxGroups ∧ ∃ pushed, pushed.members = g.members ++ [a]
        ∧ g.push? a = some pushed := by
  have hle := g.length_le
  by_cases hroom : (g.members ++ [a]).length ≤ maxGroups
  · have hlt : g.members.length < maxGroups := by rwa [List.length_append] at hroom
    exact .inr ⟨hlt, _, rfl, dif_pos hroom⟩
  · have hfull : g.members.length = maxGroups := by
      rw [List.length_append, List.length_singleton] at hroom
      omega
    exact .inl ⟨hfull, dif_neg hroom⟩

namespace Identity

/-- **What an attempt to join a group may come to.** -/
theorem joinGroup_cases (c : Identity) (group : Address) :
    group.isGroup = false ∧ c.joinGroup group = .error (.invalidGroup group)
      ∨ group.isGroup = true ∧ (group ∈ c.groups.members ∧ c.joinGroup group = .ok c
        ∨ group ∉ c.groups.members ∧ (c.groups.members.length = maxGroups
            ∧ c.joinGroup group = .error .tooManyGroups
          ∨ c.groups.members.length < maxGroups ∧ ∃ groups,
            groups.members = c.groups.members ++ [group]
              ∧ c.joinGroup group = .ok { c with groups := groups })) := by
  rw [joinGroup]
  cases hgroup : group.isGroup with
  | false => exact .inl ⟨rfl, rfl⟩
  | true =>
    refine .inr ⟨rfl, ?_⟩
    by_cases hmem : group ∈ c.groups.members
    · exact .inl ⟨hmem, if_pos hmem⟩
    · refine .inr ⟨hmem, ?_⟩
      rw [if_neg hmem]
      rcases c.groups.push?_cases group with ⟨hfull, hpush⟩ | ⟨hroom, pushed, hmembers, hpush⟩
      · exact .inl ⟨hfull, by rw [hpush]; rfl⟩
      · exact .inr ⟨hroom, pushed, hmembers, by rw [hpush]; rfl⟩

theorem joinGroup_eq_error_iff (c : Identity) (group : Address) (e : IdentityError) :
    c.joinGroup group = .error e
      ↔ e = .invalidGroup group ∧ group.isGroup = false
        ∨ e = .tooManyGroups ∧ group.isGroup = true ∧ group ∉ c.groups.members
          ∧ c.groups.members.length = maxGroups := by
  rcases c.joinGroup_cases group with ⟨hgroup, hjoin⟩ | ⟨hgroup, ⟨hmem, hjoin⟩ | ⟨hmem, hrest⟩⟩
  · simp [hjoin, hgroup, eq_comm]
  · simp [hjoin, hgroup, hmem]
  · rcases hrest with ⟨hfull, hjoin⟩ | ⟨hroom, groups, -, hjoin⟩
    · simp [hjoin, hgroup, hmem, hfull, eq_comm]
    · simp [hjoin, hgroup, Nat.ne_of_lt hroom]

theorem tryJoin_members (c : Identity) (group : Address) :
    (c.tryJoin group).groups.members
      = if group.isGroup = true ∧ group ∉ c.groups.members
            ∧ c.groups.members.length < maxGroups then
          c.groups.members ++ [group]
        else c.groups.members := by
  rw [tryJoin]
  rcases c.joinGroup_cases group with ⟨hgroup, hjoin⟩ | ⟨hgroup, ⟨hmem, hjoin⟩ | ⟨hmem, hrest⟩⟩
  · simp [hjoin, hgroup]
  · simp [hjoin, hmem]
  · rcases hrest with ⟨hfull, hjoin⟩ | ⟨hroom, groups, hmembers, hjoin⟩
    · simp [hjoin, hfull]
    · simp [hjoin, hgroup, hmem, hroom, hmembers]

/-- An attempt changes nothing but the memberships. -/
theorem tryJoin_others (c : Identity) (group : Address) :
    ∃ groups, c.tryJoin group = { c with groups := groups } := by
  rw [tryJoin]
  rcases c.joinGroup_cases group with ⟨-, hjoin⟩ | ⟨-, ⟨-, hjoin⟩ | ⟨-, hrest⟩⟩
  · exact ⟨c.groups, by rw [hjoin]⟩
  · exact ⟨c.groups, by rw [hjoin]⟩
  · rcases hrest with ⟨-, hjoin⟩ | ⟨-, groups, -, hjoin⟩
    · exact ⟨c.groups, by rw [hjoin]⟩
    · exact ⟨groups, by rw [hjoin]⟩

/-! ### Any number of attempts -/

/-- The identity after some attempts, one after another. -/
def joinAll (c : Identity) (attempts : List Address) : Identity := attempts.foldl tryJoin c

theorem joinAll_snoc (c : Identity) (attempts : List Address) (group : Address) :
    c.joinAll (attempts ++ [group]) = (c.joinAll attempts).tryJoin group :=
  List.foldl_append

variable {c : Identity}

/-- **The memberships are told by the attempts**: the first four different groups among them. -/
theorem joinAll_members (hnone : c.groups.members = []) (attempts : List Address) :
    (c.joinAll attempts).groups.members = firstGroups attempts := by
  induction attempts using List.reverseRecOn with
  | nil => exact hnone
  | append_singleton earlier group ih => rw [joinAll_snoc, tryJoin_members, firstGroups_snoc, ih]

theorem joinAll_others (c : Identity) (attempts : List Address) :
    ∃ groups, c.joinAll attempts = { c with groups := groups } := by
  induction attempts using List.reverseRecOn with
  | nil => exact ⟨c.groups, rfl⟩
  | append_singleton earlier group ih =>
    obtain ⟨before, hbefore⟩ := ih
    obtain ⟨groups, hjoin⟩ := (c.joinAll earlier).tryJoin_others group
    exact ⟨groups, by rw [joinAll_snoc, hjoin, hbefore]⟩

/-- Groups never make a valid identity bad. -/
theorem validate_of_groups (hversion : c.version = identityVersion)
    (haddress : c.address.isAssignable = true) (hspeed : c.baudrate ≠ 0)
    (hgroups : ∀ group ∈ c.groups.members, group.isGroup = true) : c.validate = .ok () := by
  have hnone : c.groups.members.find? (!·.isGroup) = none := by
    refine List.find?_eq_none.2 fun group hgroup => ?_
    rw [hgroups group hgroup]
    decide
  simp [validate, hversion, haddress, hnone, hspeed]

theorem accepts_iff_mem (hplain : c.promiscuous = false) (destination : Address) :
    c.accepts destination = true
      ↔ destination = c.address ∨ destination = 0xFF ∨ destination ∈ c.groups.members := by
  simp only [accepts, hplain, Bool.false_or, Bool.or_eq_true, beq_iff_eq, or_assoc,
    List.contains_eq_mem, decide_eq_true_iff]
  rfl

end Identity

/-! ### Stations as they come -/

/-- The ready-made identities, before any group is joined. -/
inductive Preset
  | plain (address : Address)
  | busMaster
  | keypad (address : Address)
  | thermometer (address : Address)
deriving DecidableEq, Repr

def Preset.identity : Preset → Identity
  | plain address => .plain address
  | busMaster => .busMaster
  | keypad address => .keypad address
  | thermometer address => .thermometer address

namespace Identity

/-- What is known of an identity `joined` that came of `c` by some attempts to join groups. -/
structure Joins (c : Identity) (attempts : List Address) (joined : Identity) : Prop where
  members : joined.groups.members = firstGroups attempts
  distinct : joined.groups.members.Nodup
  others : joined = { c with groups := joined.groups }
  /-- When and why one more attempt is refused. -/
  refused : ∀ group e, joined.joinGroup group = .error e
    ↔ e = .invalidGroup group ∧ ¬ (50 ≤ group ∧ group ≤ 100)
      ∨ e = .tooManyGroups ∧ (50 ≤ group ∧ group ≤ 100) ∧ group ∉ joined.groups.members
        ∧ joined.groups.members.length = 4
  valid : c.address.isAssignable = true → c.baudrate ≠ 0 →
    joined.validate = .ok ()
      ∧ (joined.promiscuous = false → ∀ destination, joined.accepts destination = true
        ↔ destination = c.address ∨ destination = 0xFF ∨ destination ∈ joined.groups.members)

/-- **A station is in the first four groups that it tried to join**, and in nothing else, whatever
else it tried. -/
theorem presets_join (preset : Preset) (attempts : List Address) :
    preset.identity.Joins attempts (preset.identity.joinAll attempts) := by
  have hnone : preset.identity.groups.members = [] := by cases preset <;> rfl
  have hversion : preset.identity.version = identityVersion := by cases preset <;> rfl
  have hmembers := joinAll_members hnone attempts
  obtain ⟨groups, hjoined⟩ := preset.identity.joinAll_others attempts
  rw [hjoined] at hmembers ⊢
  refine ⟨hmembers, ?_, rfl, fun group e => ?_, fun haddress hspeed => ⟨?_, accepts_iff_mem⟩⟩
  · show groups.members.Nodup
    rw [hmembers]
    exact (differentGroups_nodup attempts).sublist (List.take_sublist _ _)
  · rw [joinGroup_eq_error_iff, ← Bool.not_eq_true, Address.isGroup_iff]
    rfl
  · refine validate_of_groups hversion haddress hspeed fun group hgroup => ?_
    exact isGroup_of_mem_firstGroups (hmembers ▸ hgroup)

/-- A value outside the range and a second attempt do not count, and the fifth group is refused. -/
example : ((keypad 5).joinAll [60, 20, 55, 60, 101, 100, 50, 99, 55]).groups.members
    = [60, 55, 100, 50] := by
  decide

end Identity

end MultidropBus
