import CodePanel.Proofs.Overlay.Lives
import Mathlib.Order.WellFounded

namespace CodePanel.Overlay

theorem getLastD_iterate {α : Type} (f : α → α) (a other : α) {n : Nat} (h : n ≠ 0) :
    (List.iterate f a n).getLastD other = f^[n - 1] a := by
  obtain ⟨m, rfl⟩ := Nat.exists_eq_succ_of_ne_zero h
  have hiterate : List.iterate f a (m + 1) = List.iterate f a m ++ [f^[m] a] :=
    List.iterate_add f a m 1
  rw [Nat.succ_eq_add_one, hiterate, List.getLastD_concat, Nat.add_sub_cancel]

namespace Stage.Holds

variable {stage : Stage} {live : List Lease} (holds : stage.Holds live)
include holds

-- Only overlays that inset a surface write its padding, when they come and when they go.
theorem edge_step_of_quiet {command : Command} {s : Nat}
    (hmounts : ∀ lease ∈ command.lease?, lease.places s = 0)
    (hleaves : ∀ lease ∈ live, command.ends? = some lease.slot → lease.places s = 0) :
    ((stage.step command).2.surface? s).map Surface.edge =
      (stage.surface? s).map Surface.edge := by
  cases hends : command.ends? with
  | none => exact stage.edge_step_of_not_ends hends s
  | some slot =>
    have howed : stage.owed slot s = [] := by
      refine holds.owed_eq_nil fun lease htenant => ?_
      have hslot : lease.slot = slot := by simpa using List.find?_some htenant
      exact hleaves lease (List.mem_of_find?_eq_some htenant) (by rw [hends, hslot])
    rw [stage.surface_step_of_owed hends howed hmounts]

end Stage.Holds

theorem edge_run_of_quiet (board : Board) (front back : List Command) (s : Nat)
    (h : ∀ earlier command later, back = earlier ++ command :: later →
      (∀ lease ∈ command.lease?, lease.places s = 0) ∧
      ∀ lease ∈ liveAfter (front ++ earlier), command.ends? = some lease.slot →
        lease.places s = 0) :
    (((Stage.ofBoard board).run (front ++ back)).surface? s).map Surface.edge =
      (((Stage.ofBoard board).run front).surface? s).map Surface.edge := by
  induction back using List.reverseRecOn with
  | nil => rw [List.append_nil]
  | append_singleton back command ih =>
    obtain ⟨hmounts, hleaves⟩ := h back command [] rfl
    rw [← List.append_assoc, Stage.run_append_singleton,
      (holds_run board (front ++ back)).edge_step_of_quiet hmounts hleaves]
    apply ih
    intro earlier other later hback
    exact h earlier other (later ++ [command]) (by simp [hback])

-- If no overlay is left in the end, every one that comes or goes has a life, which ends no earlier.
theorem quiet_of_lives {commands front later : List Command} {command : Command} {s : Nat}
    (idle : liveAfter commands = []) (hrun : commands = front ++ command :: later)
    (h : ∀ life : Life commands, life.after.length ≤ later.length → life.lease.places s = 0) :
    (∀ lease ∈ command.lease?, lease.places s = 0) ∧
    ∀ lease ∈ liveAfter front, command.ends? = some lease.slot → lease.places s = 0 := by
  refine ⟨fun lease hlease => ?_, fun lease hmem hends => ?_⟩
  · obtain ⟨life, rfl, hafter⟩ := exists_life_of_mount hrun hlease (by simp [idle])
    exact h life (Nat.le_of_lt hafter)
  · obtain ⟨life, rfl, hafter⟩ := exists_life_of_unmount hrun hmem hends
    exact h life (Nat.le_of_eq (congrArg List.length hafter))

namespace Life

variable {commands : List Command} (life : Life commands)

-- The overlay insets a surface, and none that does so leaves after it.
def IsLast (s : Nat) : Prop :=
  life.lease.places s ≠ 0 ∧
    ∀ other : Life commands, other.lease.places s ≠ 0 → life.after.length ≤ other.after.length

-- The padding that the overlay found at the last place of a surface in its list.
def remembers (board : Board) (s : Nat) : Option Padding :=
  ((life.found board).surface? s).map fun surface =>
    (Padding.widen life.lease.adjustment.inset)^[life.lease.places s - 1] surface.padding

theorem exists_isLast {s : Nat} (h : life.lease.places s ≠ 0) :
    ∃ last : Life commands, last.IsLast s := by
  obtain ⟨last, hplaces, hmin⟩ := WellFounded.has_min
    (measure fun life : Life commands => life.after.length).wf
    {life | life.lease.places s ≠ 0} ⟨life, h⟩
  exact ⟨last, hplaces, fun other hother => Nat.le_of_not_lt (hmin other hother)⟩

theorem padding_left (board : Board) {s : Nat} (h : life.lease.places s ≠ 0) :
    ((life.left board).surface? s).map Surface.padding = life.remembers board s := by
  have hsome := life.isSome_surface_final board s
  unfold remembers
  rw [left_eq, Stage.surface_clear, Option.map_map]
  cases hfound : (life.found board).surface? s with
  | none =>
    rw [hfound, Option.isSome_none, Option.isSome_eq_false_iff, Option.isNone_iff_eq_none] at hsome
    rw [hsome]
    rfl
  | some surface =>
    rw [hfound, Option.isSome_some] at hsome
    obtain ⟨final, hfinal⟩ := Option.isSome_iff_exists.mp hsome
    rw [hfinal, life.owed_final board hfound]
    exact congrArg some (getLastD_iterate _ _ _ h)

variable {life}

theorem IsLast.places_eq_zero {s : Nat} (last : life.IsLast s) {other : Life commands}
    (h : other.after.length < life.after.length) : other.lease.places s = 0 := by
  by_contra hplaces
  exact absurd (last.2 other hplaces) (Nat.not_le_of_lt h)

-- Once the last overlay has left a surface, its padding stays as it is.
theorem IsLast.edge_run {s : Nat} (last : life.IsLast s) (board : Board)
    (idle : liveAfter commands = []) :
    (((Stage.ofBoard board).run commands).surface? s).map Surface.edge =
      ((life.left board).surface? s).map Surface.edge := by
  let front := life.before ++ life.mount :: life.during
  have hrun : commands = (front ++ [life.unmount]) ++ life.after := calc
    commands = life.before ++ life.mount :: (life.during ++ life.unmount :: life.after) :=
      life.run_eq
    _ = (front ++ [life.unmount]) ++ life.after := by simp [front]
  have hquiet : (((Stage.ofBoard board).run commands).surface? s).map Surface.edge =
      (((life.final board).step life.unmount).2.surface? s).map Surface.edge := by
    have hafter := edge_run_of_quiet board (front ++ [life.unmount]) life.after s ?_
    · rwa [← hrun, Stage.run_append_singleton] at hafter
    · intro earlier command later hsplit
      have hlength : later.length < life.after.length := by
        rw [hsplit, List.length_append, List.length_cons]
        omega
      have hcommand : commands = (front ++ [life.unmount] ++ earlier) ++ command :: later :=
        hrun.trans (by simp [hsplit])
      refine quiet_of_lives idle hcommand fun other hother => ?_
      exact last.places_eq_zero (Nat.lt_of_le_of_lt hother hlength)
  rw [hquiet]
  unfold left
  split
  · next lease hlease =>
    have hmount : commands = front ++ life.unmount :: life.after := hrun.trans (by simp)
    obtain ⟨other, rfl, hother⟩ := exists_life_of_mount hmount hlease (by simp [idle])
    rw [Stage.step_of_lease _ hlease,
      Stage.surface_lodge_of_places _ (last.places_eq_zero hother)]
  · rfl

end Life

theorem padding_run_of_no_life {commands : List Command} (board : Board) {s : Nat}
    (idle : liveAfter commands = []) (h : ∀ life : Life commands, life.lease.places s = 0) :
    (((Stage.ofBoard board).run commands).surface? s).map Surface.padding =
      board.surfaces[s]?.map Surface.padding := by
  apply padding_eq_of_edge
  refine edge_run_of_quiet board [] commands s fun earlier command later hsplit => ?_
  exact quiet_of_lives idle hsplit fun life _ => h life

-- When no overlay is mounted any more, a surface has the padding that the last of those which inset
-- it remembers. So it has its first padding again just if that is the one remembered.
theorem insets_taken_off_iff (board : Board) (commands : List Command)
    (idle : liveAfter commands = []) (s : Nat) :
    let padding := (((Stage.ofBoard board).run commands).surface? s).map Surface.padding
    (∀ life : Life commands, life.IsLast s → padding = life.remembers board s) ∧
    (padding = board.surfaces[s]?.map Surface.padding ↔
      ∀ life : Life commands, life.IsLast s →
        life.remembers board s = board.surfaces[s]?.map Surface.padding) := by
  intro padding
  have hlast : ∀ life : Life commands, life.IsLast s → padding = life.remembers board s := by
    intro life last
    rw [← life.padding_left board last.1]
    exact padding_eq_of_edge (last.edge_run board idle)
  refine ⟨hlast, fun h life last => (hlast life last).symm.trans h, fun h => ?_⟩
  by_cases hinset : ∃ life : Life commands, life.lease.places s ≠ 0
  · obtain ⟨life, hplaces⟩ := hinset
    obtain ⟨last, hislast⟩ := life.exists_isLast hplaces
    exact (hlast last hislast).trans (h last hislast)
  · exact padding_run_of_no_life board idle fun life => by_contra fun hne => hinset ⟨life, hne⟩

-- A surface for two overlays to share, or for one to list twice.
def oneSurface : Board :=
  ⟨[{ padding := ⟨10.0, 10.0⟩ }]⟩

-- Overlays that leave in the order in which they came.
def crossedRun : List Command :=
  [.mount 0 [0] ⟨false, 3.0⟩ {}, .mount 1 [0] ⟨false, 3.0⟩ {}, .drop 0, .drop 1]

def doubledRun : List Command :=
  [.mount 0 [0, 0] ⟨false, 3.0⟩ {}, .drop 0]

theorem insets_taken_off_iff_crossed :
    liveAfter crossedRun = [] ∧
    ((((Stage.ofBoard oneSurface).run crossedRun).surface? 0).map Surface.padding =
        oneSurface.surfaces[0]?.map Surface.padding ↔
      ∀ life : Life crossedRun, life.IsLast 0 →
        life.remembers oneSurface 0 = oneSurface.surfaces[0]?.map Surface.padding) :=
  ⟨rfl, (insets_taken_off_iff oneSurface crossedRun rfl 0).2⟩

-- Neither run takes the insets off again.
theorem insets_left_behind :
    (liveAfter crossedRun = [] ∧
      (((Stage.ofBoard oneSurface).run crossedRun).surface? 0).map Surface.padding ≠
        oneSurface.surfaces[0]?.map Surface.padding) ∧
    (liveAfter doubledRun = [] ∧
      (((Stage.ofBoard oneSurface).run doubledRun).surface? 0).map Surface.padding ≠
        oneSurface.surfaces[0]?.map Surface.padding) := by
  have hne : (some ⟨13.0, 13.0⟩ : Option Padding) ≠ some ⟨10.0, 10.0⟩ := by
    intro h
    have hleft : (13.0 : Float) = 10.0 := congrArg Padding.left (Option.some.inj h)
    exact absurd hleft (by decide)
  have hcrossed : (((Stage.ofBoard oneSurface).run crossedRun).surface? 0).map Surface.padding =
      some ⟨13.0, 13.0⟩ := rfl
  have hdoubled : (((Stage.ofBoard oneSurface).run doubledRun).surface? 0).map Surface.padding =
      some ⟨13.0, 13.0⟩ := rfl
  exact ⟨⟨rfl, hcrossed ▸ hne⟩, rfl, hdoubled ▸ hne⟩

end CodePanel.Overlay
