import CodePanel.Proofs.Overlay.Lives
import Mathlib.Data.List.Nodup

namespace CodePanel.Overlay

-- No command takes down an overlay other than the one mounted last.
def WellNested (live : List Lease) : List Command → Prop
  | [] => True
  | command :: rest =>
    (∀ lease ∈ live.dropLast, command.ends? ≠ some lease.slot) ∧
      WellNested (ledger live command) rest

instance decidableWellNested : ∀ (live : List Lease) (commands : List Command),
    Decidable (WellNested live commands)
  | _, [] => .isTrue trivial
  | live, command :: rest =>
    have := decidableWellNested (ledger live command) rest
    inferInstanceAs (Decidable (_ ∧ _))

def Lease.Insets (lease : Lease) (s : Nat) : Prop :=
  (lease.adjustment.inset != 0.0) = true ∧ s ∈ lease.backdrops

instance (lease : Lease) (s : Nat) : Decidable (lease.Insets s) :=
  inferInstanceAs (Decidable (_ ∧ _))

-- A padding of a surface with the insets of overlays added, one after the other.
def widenAll (s : Nat) (live : List Lease) (padding : Padding) : Padding :=
  live.foldl (fun padding lease =>
    if lease.Insets s then padding.widen lease.adjustment.inset else padding) padding

-- How often the padding of a surface has been written.
def Stage.writes (stage : Stage) (s : Nat) : Nat :=
  ((stage.surface? s).map Surface.paddingWrites).getD 0

-- How often the commands of a run that go to a slot write the padding of a surface.
def Stage.writesOf (stage : Stage) (slot s : Nat) : List Command → Nat
  | [] => 0
  | command :: rest =>
    let next := (stage.step command).2
    (if command.slot? = some slot then next.writes s - stage.writes s else 0) +
      next.writesOf slot s rest

-- How often an overlay writes the padding of a surface: when it is mounted, while it stays, and
-- when it leaves.
def Life.writes {commands : List Command} (life : Life commands) (board : Board) (s : Nat) : Nat :=
  ((life.mounted board).writes s - (life.found board).writes s) +
    (life.mounted board).writesOf life.lease.slot s life.during +
    ((life.left board).writes s - (life.final board).writes s)

theorem wellNested_append {live : List Lease} {front back : List Command} :
    WellNested live (front ++ back) ↔
      WellNested live front ∧ WellNested (front.foldl ledger live) back := by
  induction front generalizing live with
  | nil => simp [WellNested]
  | cons command rest ih => simp only [List.cons_append, WellNested, ih, List.foldl_cons, and_assoc]

theorem Lease.places_eq_one {lease : Lease} {s : Nat} (hnodup : lease.backdrops.Nodup)
    (h : lease.Insets s) : lease.places s = 1 := by
  unfold Lease.places
  rw [if_pos h.1, List.count_eq_one_of_mem hnodup h.2]

theorem Lease.places_eq_zero {lease : Lease} {s : Nat} (h : ¬lease.Insets s) :
    lease.places s = 0 := by
  unfold Lease.places
  split
  · next hinset => exact List.count_eq_zero.mpr fun hmem => h ⟨hinset, hmem⟩
  · rfl

theorem widenAll_append_singleton (s : Nat) (live : List Lease) (lease : Lease)
    (padding : Padding) :
    widenAll s (live ++ [lease]) padding =
      if lease.Insets s then (widenAll s live padding).widen lease.adjustment.inset
      else widenAll s live padding := by
  simp [widenAll]

-- A stage on which the mounted overlays stand one upon the other. Each has saved the padding that
-- the ones below it had made.
structure Stacked (board : Board) (live : List Lease) (stage : Stage) : Prop where
  holds : stage.Holds live
  distinct : (live.map Lease.slot).Nodup
  padding : ∀ s, (stage.surface? s).map Surface.padding =
    board.surfaces[s]?.map fun surface => widenAll s live surface.padding
  owed : ∀ below lease above, live = below ++ lease :: above → ∀ s surface,
    board.surfaces[s]? = some surface → stage.owed lease.slot s =
      if lease.Insets s then [widenAll s below surface.padding] else []

theorem stacked_ofBoard (board : Board) : Stacked board [] (Stage.ofBoard board) where
  holds _ := .none
  distinct := List.nodup_nil
  padding _ := rfl
  owed below lease above h := by simp at h

theorem evict_eq_self {live : List Lease} {slot : Nat} (h : ∀ lease ∈ live, lease.slot ≠ slot) :
    evict live slot = live :=
  List.filter_eq_self.mpr fun lease hmem => by simpa using h lease hmem

theorem evict_append_top {below : List Lease} {top : Lease}
    (h : ∀ lease ∈ below, lease.slot ≠ top.slot) : evict (below ++ [top]) top.slot = below := by
  rw [evict, List.filter_append, ← evict, evict_eq_self h]
  simp

theorem tenant_eq_none {live : List Lease} {slot : Nat} (h : ∀ lease ∈ live, lease.slot ≠ slot) :
    tenant? live slot = none := by
  simpa [tenant?] using h

namespace Stacked

variable {board : Board} {live : List Lease} {stage : Stage} {lease : Lease}

-- The surface of a stacked stage that goes with one of the board.
theorem exists_surface (stacked : Stacked board live stage) {s : Nat} {surface : Surface}
    (h : board.surfaces[s]? = some surface) : ∃ current, stage.surface? s = some current ∧
      current.padding = widenAll s live surface.padding := by
  have hpadding := stacked.padding s
  rw [h, Option.map_some, Option.map_eq_some_iff] at hpadding
  exact hpadding

theorem surface_eq_none (stacked : Stacked board live stage) {s : Nat}
    (h : board.surfaces[s]? = none) : stage.surface? s = none := by
  have hpadding := stacked.padding s
  rwa [h, Option.map_none, Option.map_eq_none_iff] at hpadding

theorem slot_ne_of_mem (stacked : Stacked board (live ++ [lease]) stage) :
    ∀ other ∈ live, other.slot ≠ lease.slot := by
  intro other hmem heq
  have hdistinct := stacked.distinct
  rw [List.map_append, List.map_singleton] at hdistinct
  exact (List.nodup_append.mp hdistinct).2.2 _ (List.mem_map_of_mem hmem) _ (by simp) heq

-- Taking the top overlay off.
theorem clear_top (stacked : Stacked board (live ++ [lease]) stage) :
    Stacked board live (stage.clear lease.slot) := by
  have hne := stacked.slot_ne_of_mem
  refine ⟨?_, ?_, fun s => ?_, fun below other above hlive s surface hsurface => ?_⟩
  · have hholds := stacked.holds.clear lease.slot
    rwa [evict_append_top hne] at hholds
  · have hdistinct := stacked.distinct
    rw [List.map_append] at hdistinct
    exact (List.nodup_append.mp hdistinct).1
  · rw [stage.surface_clear, Option.map_map]
    cases hsurface : board.surfaces[s]? with
    | none =>
      rw [stacked.surface_eq_none hsurface]
      rfl
    | some surface =>
      obtain ⟨current, hcurrent, hpadding⟩ := stacked.exists_surface hsurface
      have howed := stacked.owed live lease [] rfl s surface hsurface
      rw [widenAll_append_singleton] at hpadding
      rw [hcurrent, howed]
      by_cases hinsets : lease.Insets s
      · simp [hinsets]
      · simpa [hinsets] using hpadding
  · have hother : other.slot ≠ lease.slot := hne other (by simp [hlive])
    have howed := stacked.owed below other (above ++ [lease]) (by simp [hlive]) s surface hsurface
    rw [← howed]
    unfold Stage.owed
    rw [stage.slots_clear, if_neg hother]

-- Putting an overlay on top.
theorem lodge (stacked : Stacked board live stage)
    (hvacant : ∀ other ∈ live, other.slot ≠ lease.slot) (hnodup : lease.backdrops.Nodup) :
    Stacked board (live ++ [lease]) (stage.lodge lease) := by
  refine ⟨stacked.holds.lodge (tenant_eq_none hvacant), ?_, fun s => ?_,
    fun below other above hlive s surface hsurface => ?_⟩
  · rw [List.map_append, List.map_singleton, List.nodup_append]
    refine ⟨stacked.distinct, by simp, fun slot hslot top htop => ?_⟩
    obtain ⟨other, hmem, rfl⟩ := List.mem_map.mp hslot
    rw [List.mem_singleton.mp htop]
    exact hvacant other hmem
  · rw [stage.surface_lodge, Option.map_map]
    cases hsurface : board.surfaces[s]? with
    | none =>
      rw [stacked.surface_eq_none hsurface]
      rfl
    | some surface =>
      obtain ⟨current, hcurrent, hpadding⟩ := stacked.exists_surface hsurface
      rw [hcurrent, Option.map_some, Option.map_some, widenAll_append_singleton, ← hpadding]
      by_cases hinsets : lease.Insets s
      · simp [hinsets, Lease.places_eq_one hnodup hinsets]
      · simp [hinsets, Lease.places_eq_zero hinsets]
  · -- the overlay asked for is either the new one or one of those below it
    rcases List.eq_nil_or_concat above with rfl | ⟨above, top, rfl⟩
    · obtain ⟨rfl, htop⟩ := List.append_inj' hlive rfl
      obtain rfl : lease = other := by simpa using htop
      obtain ⟨current, hcurrent, hpadding⟩ := stacked.exists_surface hsurface
      rw [stage.owed_lodge lease hcurrent, ← hpadding]
      by_cases hinsets : lease.Insets s
      · simp [hinsets, Lease.places_eq_one hnodup hinsets]
      · simp [hinsets, Lease.places_eq_zero hinsets]
    · rw [List.concat_eq_append, ← List.cons_append, ← List.append_assoc] at hlive
      obtain ⟨hbelow, htop⟩ := List.append_inj' hlive rfl
      have hother : other.slot ≠ lease.slot := hvacant other (by simp [hbelow])
      rw [← stacked.owed below other above hbelow s surface hsurface]
      unfold Stage.owed
      rw [stage.slots_lodge, if_neg hother]

theorem clear_vacant (stacked : Stacked board live stage) {slot : Nat}
    (h : ∀ lease ∈ live, lease.slot ≠ slot) : stage.clear slot = stage := by
  have hslot := stacked.holds slot
  rw [tenant_eq_none h] at hslot
  unfold Stage.clear
  generalize stage.slots slot = mounted at hslot
  cases hslot with
  | none => rfl

-- Clearing a slot that is not buried.
theorem clear (stacked : Stacked board live stage) {slot : Nat}
    (h : ∀ lease ∈ live.dropLast, lease.slot ≠ slot) :
    Stacked board (evict live slot) (stage.clear slot) := by
  by_cases hvacant : ∀ lease ∈ live, lease.slot ≠ slot
  · rwa [evict_eq_self hvacant, stacked.clear_vacant hvacant]
  · rcases List.eq_nil_or_concat live with rfl | ⟨below, top, rfl⟩
    · simp at hvacant
    · rw [List.concat_eq_append] at stacked hvacant h ⊢
      rw [List.dropLast_concat] at h
      have htop : top.slot = slot := by
        by_contra hne
        apply hvacant
        intro lease hmem
        rcases List.mem_append.mp hmem with hmem | hmem
        · exact h lease hmem
        · rwa [List.mem_singleton.mp hmem]
      subst htop
      rw [evict_append_top h]
      exact stacked.clear_top

theorem step (stacked : Stacked board live stage) {command : Command}
    (htop : ∀ lease ∈ live.dropLast, command.ends? ≠ some lease.slot)
    (hnodup : ∀ lease ∈ command.lease?, lease.backdrops.Nodup) :
    Stacked board (ledger live command) (stage.step command).2 := by
  cases hends : command.ends? with
  | none =>
    have hslots := stage.slots_step_of_not_ends hends
    rw [ledger_of_not_ends live hends]
    refine ⟨fun slot => hslots ▸ stacked.holds slot, stacked.distinct, fun s => ?_, ?_⟩
    · exact (padding_eq_of_edge (stage.edge_step_of_not_ends hends s)).trans (stacked.padding s)
    · unfold Stage.owed
      rw [hslots]
      exact stacked.owed
  | some slot =>
    have hclear : ∀ lease ∈ live.dropLast, lease.slot ≠ slot := by
      intro lease hmem heq
      exact htop lease hmem (by rw [hends, heq])
    cases hlease : command.lease? with
    | none =>
      rw [ledger_of_ends live hlease hends, stage.step_of_ends hlease hends]
      exact stacked.clear hclear
    | some lease =>
      obtain rfl := Command.slot_eq_of_lease hlease hends
      rw [ledger_of_lease live hlease, stage.step_of_lease hlease]
      refine (stacked.clear hclear).lodge (fun other hother => ?_) (hnodup lease hlease)
      exact (mem_evict.mp hother).2

theorem run (stacked : Stacked board live stage) {commands : List Command}
    (nested : WellNested live commands)
    (once : ∀ command ∈ commands, ∀ lease ∈ command.lease?, lease.backdrops.Nodup) :
    Stacked board (commands.foldl ledger live) (stage.run commands) := by
  induction commands generalizing live stage with
  | nil => exact stacked
  | cons command rest ih =>
    have hstep := stacked.step nested.1 (once command (by simp))
    exact ih hstep nested.2 fun other hother => once other (by simp [hother])

end Stacked

-- An overlay keeps its place in the stack, and so do those below it, until it is taken down.
theorem exists_ledger_eq {below above : List Lease} {lease : Lease} {command : Command}
    (htop : ∀ other ∈ (below ++ lease :: above).dropLast, command.ends? ≠ some other.slot)
    (hstays : command.ends? ≠ some lease.slot) :
    ∃ above', ledger (below ++ lease :: above) command = below ++ lease :: above' := by
  cases hends : command.ends? with
  | none => exact ⟨above, ledger_of_not_ends _ hends⟩
  | some slot =>
    have hbelow : evict below slot = below := by
      refine evict_eq_self fun other hmem heq => htop other ?_ (by rw [hends, heq])
      rw [List.dropLast_append_of_ne_nil (List.cons_ne_nil lease above)]
      exact List.mem_append_left _ hmem
    have hlease : lease.slot ≠ slot := fun heq => hstays (by rw [hends, heq])
    refine ⟨evict above slot ++ command.lease?.toList, ?_⟩
    simp only [ledger, hends]
    rw [evict, List.filter_append, ← evict, hbelow, List.filter_cons_of_pos (by simpa using hlease),
      List.append_assoc]
    rfl

theorem exists_foldl_ledger_eq {below above : List Lease} {lease : Lease} {during : List Command}
    (nested : WellNested (below ++ lease :: above) during)
    (hstays : ∀ command ∈ during, command.ends? ≠ some lease.slot) :
    ∃ above', during.foldl ledger (below ++ lease :: above) = below ++ lease :: above' := by
  induction during generalizing above with
  | nil => exact ⟨above, rfl⟩
  | cons command rest ih =>
    obtain ⟨next, hnext⟩ := exists_ledger_eq nested.1 (hstays command (by simp))
    have hrest := nested.2
    rw [hnext] at hrest
    rw [List.foldl_cons, hnext]
    exact ih hrest fun other hother => hstays other (by simp [hother])

namespace Life

variable {commands : List Command} (life : Life commands) (board : Board)

-- The overlays below one are the same at the end of its life as at the start.
theorem liveAfter_final (nested : WellNested [] commands) :
    liveAfter (life.before ++ life.mount :: life.during) =
      evict (liveAfter life.before) life.lease.slot ++ [life.lease] := by
  have hnested := nested
  rw [life.run_eq, wellNested_append] at hnested
  obtain ⟨-, -, hduring⟩ := hnested
  rw [ledger_of_lease _ life.mounts, wellNested_append] at hduring
  obtain ⟨above, habove⟩ := exists_foldl_ledger_eq hduring.1 life.stays
  have hlive : liveAfter (life.before ++ life.mount :: life.during) =
      evict (liveAfter life.before) life.lease.slot ++ life.lease :: above := by
    rw [liveAfter, List.foldl_append, List.foldl_cons, ledger_of_lease _ life.mounts, habove]
    rfl
  -- an overlay above this one would have to be taken down first
  have hleaves := hduring.2.1 life.lease
  rw [habove] at hleaves
  cases above with
  | nil => exact hlive
  | cons top rest =>
    refine absurd life.leaves (hleaves ?_)
    rw [List.dropLast_append_of_ne_nil (List.cons_ne_nil _ _), List.dropLast_cons_cons]
    simp

section Nested

variable (nested : WellNested [] commands)
  (once : ∀ command ∈ commands, ∀ lease ∈ command.lease?, lease.backdrops.Nodup)
include nested once

theorem stacked_found :
    Stacked board (evict (liveAfter life.before) life.lease.slot) (life.found board) := by
  have hnested := nested
  rw [life.run_eq, wellNested_append] at hnested
  obtain ⟨hbefore, htop, -⟩ := hnested
  have hstacked := (stacked_ofBoard board).run hbefore fun command hmem =>
    once command (by rw [life.run_eq]; simp [hmem])
  refine hstacked.clear fun lease hmem heq => htop lease hmem ?_
  rw [Command.ends_of_lease life.mounts, heq]

theorem stacked_left :
    Stacked board (evict (liveAfter life.before) life.lease.slot) (life.left board) := by
  have hrun : commands = (life.before ++ life.mount :: life.during) ++ life.unmount :: life.after :=
    life.run_eq.trans (by simp)
  have hnested := nested
  rw [hrun, wellNested_append] at hnested
  have hfinal := (stacked_ofBoard board).run hnested.1 fun command hmem =>
    once command (by rw [hrun]; exact List.mem_append_left _ hmem)
  have hlive := life.liveAfter_final nested
  rw [liveAfter] at hlive
  rw [hlive] at hfinal
  rw [left_eq]
  exact hfinal.clear_top

end Nested

theorem isSome_surface_found (s : Nat) :
    ((life.found board).surface? s).isSome = board.surfaces[s]?.isSome := by
  rw [found, Stage.surface_clear, Option.isSome_map, Stage.isSome_surface_run]
  rfl

-- While an overlay stays, its own calls write no padding.
theorem writesOf_during (stage : Stage) (s : Nat) {slot : Nat} {during : List Command}
    (hstays : ∀ command ∈ during, command.ends? ≠ some slot) :
    stage.writesOf slot s during = 0 := by
  induction during generalizing stage with
  | nil => rfl
  | cons command rest ih =>
    have hrest := ih (stage.step command).2 fun other hother => hstays other (by simp [hother])
    simp only [Stage.writesOf, hrest, Nat.add_zero]
    split
    · next hslot =>
      have hends : command.ends? = none := by
        cases hends : command.ends? with
        | none => rfl
        | some other =>
          have hother := Command.slot_of_ends hends
          rw [hslot] at hother
          exact absurd (by rw [hends, Option.some.inj hother]) (hstays command (by simp))
      have hsame : (stage.step command).2.writes s = stage.writes s :=
        congrArg (Option.getD · 0) (paddingWrites_eq_of_edge (stage.edge_step_of_not_ends hends s))
      rw [hsame, Nat.sub_self]
    · rfl

theorem writes_eq (hnodup : life.lease.backdrops.Nodup) {s : Nat}
    (hs : board.surfaces[s]?.isSome) :
    life.writes board s = if life.lease.Insets s then 2 else 0 := by
  have hfound := (life.isSome_surface_found board s).trans hs
  have hfinal := (life.isSome_surface_final board s).trans hfound
  obtain ⟨first, hfirst⟩ := Option.isSome_iff_exists.mp hfound
  obtain ⟨last, hlast⟩ := Option.isSome_iff_exists.mp hfinal
  have hmount : (life.mounted board).writes s =
      (life.found board).writes s + life.lease.places s := by
    simp [Stage.writes, mounted_eq, Stage.surface_lodge, hfirst]
  have hunmount : (life.left board).writes s =
      (life.final board).writes s + life.lease.places s := by
    simp [Stage.writes, left_eq, Stage.surface_clear, hlast, life.owed_final board hfirst]
  rw [Life.writes, hmount, hunmount, writesOf_during _ s life.stays]
  by_cases hinsets : life.lease.Insets s
  · rw [Lease.places_eq_one hnodup hinsets, if_pos hinsets]
    omega
  · rw [Lease.places_eq_zero hinsets, if_neg hinsets]
    omega

end Life

-- In a well-nested run the padding of a surface is always its first one with the insets of the
-- overlays on it, in the order of mounting. Every overlay leaves a surface with the padding that it
-- found, and writes the padding twice if it has an inset, and never otherwise.
theorem nested_mounts_unstack (board : Board) (commands : List Command)
    (nested : WellNested [] commands)
    (once : ∀ command ∈ commands, ∀ lease ∈ command.lease?, lease.backdrops.Nodup)
    (s : Nat) (hs : s < board.surfaces.length) :
    (∀ before, before <+: commands →
      ((Stage.ofBoard board).run before).board.padding s =
        widenAll s (liveAfter before) (board.padding s)) ∧
    ∀ life : Life commands,
      (life.left board).board.padding s = (life.found board).board.padding s ∧
      life.writes board s = if life.lease.Insets s then 2 else 0 := by
  have hpadding : ∀ live stage, Stacked board live stage →
      stage.board.padding s = widenAll s live (board.padding s) := by
    intro live stage stacked
    obtain ⟨surface, hsurface⟩ : ∃ surface, board.surfaces[s]? = some surface :=
      ⟨_, List.getElem?_eq_getElem hs⟩
    obtain ⟨current, hcurrent, hpadding⟩ := stacked.exists_surface hsurface
    have hstage : stage.board.padding s = current.padding := by
      unfold Board.padding
      rw [show stage.board.surfaces[s]? = some current from hcurrent]
    rw [hstage, hpadding, Board.padding, hsurface]
  refine ⟨?_, fun life => ⟨?_, ?_⟩⟩
  · rintro before ⟨after, rfl⟩
    refine hpadding _ _ ((stacked_ofBoard board).run (wellNested_append.mp nested).1 ?_)
    exact fun command hmem => once command (List.mem_append_left _ hmem)
  · rw [hpadding _ _ (life.stacked_left board nested once),
      hpadding _ _ (life.stacked_found board nested once)]
  · exact life.writes_eq board (once _ life.mount_mem life.lease life.mounts) (by simpa using hs)

def twoSurfaces : Board :=
  ⟨[{ padding := ⟨10.0, 8.0⟩ }, { padding := ⟨4.0, 2.0⟩ }]⟩

-- An overlay that comes and goes, by giving its backdrops away, while another is mounted.
def nestedRun : List Command :=
  [.mount 0 [0, 1] ⟨false, 3.0⟩ {}, .input 0 "jmp @a", .mount 1 [1] ⟨true, 2.0⟩ {},
    .refresh 1 "$n" ⟨4.0, 0.0⟩, .handBack 1, .drop 0]

theorem nested_mounts_unstack_two_overlays :
    WellNested [] nestedRun ∧
    (∀ command ∈ nestedRun, ∀ lease ∈ command.lease?, lease.backdrops.Nodup) ∧
    ((Stage.ofBoard twoSurfaces).run (nestedRun.take 3)).board.padding 1 = ⟨9.0, 7.0⟩ ∧
    ∀ life : Life nestedRun,
      (life.left twoSurfaces).board.padding 1 = (life.found twoSurfaces).board.padding 1 := by
  have hnested : WellNested [] nestedRun := by decide
  have honce : ∀ command ∈ nestedRun, ∀ lease ∈ command.lease?, lease.backdrops.Nodup := by decide
  obtain ⟨hpadding, hlives⟩ :=
    nested_mounts_unstack twoSurfaces nestedRun hnested honce 1 (by decide)
  have hwidened : widenAll 1 (liveAfter (nestedRun.take 3)) (twoSurfaces.padding 1) = ⟨9.0, 7.0⟩ :=
    rfl
  exact ⟨hnested, honce, (hpadding _ (List.take_prefix 3 nestedRun)).trans hwidened,
    fun life => (hlives life).1⟩

end CodePanel.Overlay
