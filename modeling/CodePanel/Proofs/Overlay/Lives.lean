import CodePanel.Proofs.Overlay.Leases

namespace CodePanel.Overlay

-- A life goes from the command that mounts an overlay to the one that takes it down.
structure Life (commands : List Command) where
  before : List Command
  mount : Command
  during : List Command
  unmount : Command
  after : List Command
  lease : Lease
  run_eq : commands = before ++ mount :: (during ++ unmount :: after)
  mounts : mount.lease? = some lease
  stays : ∀ command ∈ during, command.ends? ≠ some lease.slot
  leaves : unmount.ends? = some lease.slot

namespace Life

variable {commands : List Command} (life : Life commands) (board : Board)

-- The stage that the overlay is mounted on. Its slot is empty, whatever was in it before.
def found : Stage :=
  ((Stage.ofBoard board).run life.before).clear life.lease.slot

def mounted : Stage :=
  (Stage.ofBoard board).run (life.before ++ [life.mount])

-- The last stage on which the overlay is mounted.
def final : Stage :=
  (Stage.ofBoard board).run (life.before ++ life.mount :: life.during)

-- The stage that the overlay leaves. A command that takes it down to mount another one has yet to
-- do so.
def left : Stage :=
  match life.unmount.lease? with
  | some lease => (life.final board).clear lease.slot
  | none => ((life.final board).step life.unmount).2

end Life

theorem mem_evict {live : List Lease} {lease : Lease} {slot : Nat} :
    lease ∈ evict live slot ↔ lease ∈ live ∧ lease.slot ≠ slot := by
  simp [evict]

theorem mem_ledger {live : List Lease} {command : Command} {lease : Lease} :
    lease ∈ ledger live command ↔
      (lease ∈ live ∧ command.ends? ≠ some lease.slot) ∨ command.lease? = some lease := by
  cases hends : command.ends? with
  | none => simp [ledger_of_not_ends live hends, Command.lease_of_not_ends hends]
  | some slot => simp [ledger, hends, mem_evict, eq_comm (a := slot)]

-- A mounted overlay was mounted by a command after which nothing took it down.
theorem exists_mount_of_mem {commands : List Command} {lease : Lease}
    (h : lease ∈ liveAfter commands) :
    ∃ before mount during, commands = before ++ mount :: during ∧ mount.lease? = some lease ∧
      ∀ command ∈ during, command.ends? ≠ some lease.slot := by
  induction commands using List.reverseRecOn with
  | nil => cases h
  | append_singleton commands command ih =>
    rw [liveAfter_append_singleton] at h
    rcases mem_ledger.mp h with ⟨hmem, hends⟩ | hlease
    · obtain ⟨before, mount, during, hrun, hmounts, hstays⟩ := ih hmem
      refine ⟨before, mount, during ++ [command], by simp [hrun], hmounts, ?_⟩
      intro other hother
      rcases List.mem_append.mp hother with hother | hother
      · exact hstays other hother
      · rwa [List.mem_singleton.mp hother]
    · exact ⟨commands, command, [], rfl, hlease, by simp⟩

theorem mem_foldl_ledger {live : List Lease} {during : List Command} {lease : Lease}
    (h : lease ∈ live) (hstays : ∀ command ∈ during, command.ends? ≠ some lease.slot) :
    lease ∈ during.foldl ledger live := by
  induction during generalizing live with
  | nil => exact h
  | cons command rest ih =>
    refine ih (mem_ledger.mpr (.inl ⟨h, hstays command (by simp)⟩)) fun other hother => ?_
    exact hstays other (by simp [hother])

theorem exists_life_of_mount {commands before rest : List Command} {mount : Command} {lease : Lease}
    (hrun : commands = before ++ mount :: rest) (hmounts : mount.lease? = some lease)
    (hgone : lease ∉ liveAfter commands) :
    ∃ life : Life commands, life.lease = lease ∧ life.after.length < rest.length := by
  have hend : ∃ command ∈ rest, command.ends? = some lease.slot := by
    by_contra hnone
    have hstays : ∀ command ∈ rest, command.ends? ≠ some lease.slot :=
      fun command hmem heq => hnone ⟨command, hmem, heq⟩
    apply hgone
    rw [hrun, liveAfter, List.foldl_append, List.foldl_cons]
    exact mem_foldl_ledger (mem_ledger.mpr (.inr hmounts)) hstays
  -- the first command that ends the life
  have hfind : (rest.find? fun command => command.ends? = some lease.slot).isSome := by
    simpa using hend
  obtain ⟨unmount, hunmount⟩ := Option.isSome_iff_exists.mp hfind
  obtain ⟨hleaves, during, after, hrest, hstays⟩ := List.find?_eq_some_iff_append.mp hunmount
  have hlength : after.length < rest.length := by
    rw [hrest, List.length_append, List.length_cons]
    omega
  exact ⟨⟨before, mount, during, unmount, after, lease, by rw [hrun, hrest], hmounts,
    by simpa using hstays, by simpa using hleaves⟩, rfl, hlength⟩

theorem exists_life_of_unmount {commands front after : List Command} {unmount : Command}
    {lease : Lease} (hrun : commands = front ++ unmount :: after) (hmem : lease ∈ liveAfter front)
    (hleaves : unmount.ends? = some lease.slot) :
    ∃ life : Life commands, life.lease = lease ∧ life.after = after := by
  obtain ⟨before, mount, during, hfront, hmounts, hstays⟩ := exists_mount_of_mem hmem
  exact ⟨⟨before, mount, during, unmount, after, lease, by simp [hrun, hfront], hmounts, hstays,
    hleaves⟩, rfl, rfl⟩

theorem Stage.slots_step_of_ne {command : Command} {slot : Nat} (stage : Stage)
    (h : command.ends? ≠ some slot) : (stage.step command).2.slots slot = stage.slots slot := by
  cases hends : command.ends? with
  | none => rw [stage.slots_step_of_not_ends hends]
  | some other =>
    have hne : slot ≠ other := fun heq => h (by rw [hends, heq])
    cases hlease : command.lease? with
    | none => rw [stage.step_of_ends hlease hends, stage.slots_clear, if_neg hne]
    | some lease =>
      obtain rfl := Command.slot_eq_of_lease hlease hends
      rw [stage.step_of_lease hlease, slots_lodge, if_neg hne, stage.slots_clear, if_neg hne]

theorem Stage.slots_run_of_ne {during : List Command} {slot : Nat} (stage : Stage)
    (h : ∀ command ∈ during, command.ends? ≠ some slot) :
    (stage.run during).slots slot = stage.slots slot := by
  induction during generalizing stage with
  | nil => rfl
  | cons command rest ih =>
    have hrest := ih (stage.step command).2 fun other hother => h other (by simp [hother])
    exact hrest.trans (stage.slots_step_of_ne (h command (by simp)))

-- Surfaces neither come nor go.
theorem Stage.isSome_surface_step (stage : Stage) (command : Command) (s : Nat) :
    ((stage.step command).2.surface? s).isSome = (stage.surface? s).isSome := by
  cases hends : command.ends? with
  | none =>
    have hedge := congrArg Option.isSome (stage.edge_step_of_not_ends hends s)
    simpa only [Option.isSome_map] using hedge
  | some slot =>
    have hcontent := congrArg Option.isSome (stage.content_step_of_ends hends s)
    simpa only [Option.isSome_map] using hcontent

theorem Stage.isSome_surface_run (stage : Stage) (commands : List Command) (s : Nat) :
    ((stage.run commands).surface? s).isSome = (stage.surface? s).isSome := by
  induction commands generalizing stage with
  | nil => rfl
  | cons command rest ih =>
    exact (ih (stage.step command).2).trans (stage.isSome_surface_step command s)

namespace Life

variable {commands : List Command} (life : Life commands) (board : Board)

theorem mount_mem : life.mount ∈ commands := by
  obtain ⟨before, mount, during, unmount, after, lease, rfl, hmounts, hstays, hleaves⟩ := life
  simp

theorem mounted_eq : life.mounted board = (life.found board).lodge life.lease := by
  rw [mounted, Stage.run_append_singleton, Stage.step_of_lease _ life.mounts]
  rfl

theorem final_eq : life.final board = (life.mounted board).run life.during := by
  rw [final, mounted, ← Stage.run_append, List.append_assoc, List.singleton_append]

theorem left_eq : life.left board = (life.final board).clear life.lease.slot := by
  unfold left
  split
  · next lease hlease =>
    have hslot : lease.slot = life.lease.slot :=
      Option.some.inj ((Command.ends_of_lease hlease).symm.trans life.leaves)
    rw [hslot]
  · next hlease => rw [Stage.step_of_ends _ hlease life.leaves]

theorem isSome_surface_final (s : Nat) :
    ((life.final board).surface? s).isSome = ((life.found board).surface? s).isSome := by
  rw [final_eq, Stage.isSome_surface_run, mounted_eq, Stage.surface_lodge, Option.isSome_map]

-- To the end of its life an overlay owes a surface what it found at each of its places.
theorem owed_final {s : Nat} {surface : Surface}
    (h : (life.found board).surface? s = some surface) :
    (life.final board).owed life.lease.slot s =
      List.iterate (Padding.widen life.lease.adjustment.inset) surface.padding
        (life.lease.places s) := by
  have hslots : (life.final board).slots life.lease.slot =
      (life.mounted board).slots life.lease.slot := by
    rw [final_eq, Stage.slots_run_of_ne _ life.stays]
  unfold Stage.owed
  rw [hslots, mounted_eq]
  exact (life.found board).owed_lodge life.lease h

end Life

end CodePanel.Overlay
