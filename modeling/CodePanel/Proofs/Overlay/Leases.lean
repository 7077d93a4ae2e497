import CodePanel.Proofs.Overlay.Surfaces
import Mathlib.Data.List.Induction

namespace CodePanel.Overlay

open Fit

-- The options that an overlay shows text with. The hint is on if the options or the adjustment ask
-- for it.
def Lease.shownWith (lease : Lease) : Markup.Options where
  spaceBreakHint := lease.options.spaceBreakHint || lease.adjustment.spaceBreakHint
  classStem := lease.options.classStem

-- The overlay that a command mounts.
def Command.lease? : Command → Option Lease
  | .mount slot backdrops adjustment options => some ⟨slot, backdrops, adjustment, options⟩
  | .mountWith slot backdrops settings detected =>
    match Settings.read settings with
    | .ok settings => some ⟨slot, backdrops, settings.adjust detected, settings.options⟩
    | .error _ => none
  | _ => none

-- The slot that a command goes to.
def Command.slot? : Command → Option Nat
  | .mount slot _ _ _ => some slot
  | .mountWith slot _ _ _ => some slot
  | .drop slot => some slot
  | .handBack slot => some slot
  | .input slot _ => some slot
  | .scroll slot _ => some slot
  | .refresh slot _ _ => some slot
  | .count slot => some slot
  | .syncScroll _ _ => none

-- The slot whose overlay a command takes down, if there is one. Mounting does so first of all.
def Command.ends? : Command → Option Nat
  | .mount slot _ _ _ => some slot
  | .mountWith slot _ _ _ => some slot
  | .drop slot => some slot
  | .handBack slot => some slot
  | _ => none

-- The overlays that stay when a slot is cleared.
def evict (live : List Lease) (slot : Nat) : List Lease :=
  live.filter (·.slot ≠ slot)

-- The mounted overlays after one more command, in the order in which they were mounted.
def ledger (live : List Lease) (command : Command) : List Lease :=
  (match command.ends? with
  | some slot => evict live slot
  | none => live) ++ command.lease?.toList

-- The overlays that are mounted after a run.
def liveAfter (commands : List Command) : List Lease :=
  commands.foldl ledger []

-- The overlay in a slot.
def tenant? (live : List Lease) (slot : Nat) : Option Lease :=
  live.find? (·.slot = slot)

-- A mounted overlay as its terms have it. It has saved nothing of a surface that it does not inset.
structure Lease.Matches (lease : Lease) (overlay : Mounted) : Prop where
  backdrops : overlay.backdrops = lease.backdrops
  options : overlay.options = lease.shownWith
  saved : ∀ s, lease.places s = 0 → overlay.savedOf s = []

def Stage.Holds (stage : Stage) (live : List Lease) : Prop :=
  ∀ slot, Option.Rel Lease.Matches (tenant? live slot) (stage.slots slot)

def Stage.surface? (stage : Stage) (s : Nat) : Option Surface :=
  stage.board.surfaces[s]?

-- The paddings of a surface that the overlay in a slot has to put back.
def Stage.owed (stage : Stage) (slot s : Nat) : List Padding :=
  ((stage.slots slot).map (·.savedOf s)).getD []

-- Mounting without taking anything down.
def Stage.lodge (stage : Stage) (lease : Lease) : Stage :=
  let mounted := Mounted.mount lease.backdrops lease.adjustment lease.options stage.board
  { stage with board := mounted.2 }.setSlot lease.slot (some mounted.1)

-- What mounting and unmounting may change of a surface, and what they may not.
def Surface.edge (surface : Surface) : Padding × Nat :=
  (surface.padding, surface.paddingWrites)

def Surface.content (surface : Surface) : String × Scroll × Nat :=
  (surface.html, surface.scroll, surface.htmlWrites)

theorem padding_eq_of_edge {first second : Option Surface}
    (h : first.map Surface.edge = second.map Surface.edge) :
    first.map Surface.padding = second.map Surface.padding := by
  have hpadding := congrArg (Option.map Prod.fst) h
  rwa [Option.map_map, Option.map_map] at hpadding

theorem paddingWrites_eq_of_edge {first second : Option Surface}
    (h : first.map Surface.edge = second.map Surface.edge) :
    first.map Surface.paddingWrites = second.map Surface.paddingWrites := by
  have hwrites := congrArg (Option.map Prod.snd) h
  rwa [Option.map_map, Option.map_map] at hwrites

theorem liveAfter_append_singleton (commands : List Command) (command : Command) :
    liveAfter (commands ++ [command]) = ledger (liveAfter commands) command := by
  simp [liveAfter]

theorem Stage.run_append_singleton (stage : Stage) (commands : List Command) (command : Command) :
    stage.run (commands ++ [command]) = ((stage.run commands).step command).2 := by
  simp [Stage.run]

theorem Stage.run_append (stage : Stage) (front back : List Command) :
    stage.run (front ++ back) = (stage.run front).run back :=
  List.foldl_append

namespace Command

theorem ends_of_lease {command : Command} {lease : Lease} (h : command.lease? = some lease) :
    command.ends? = some lease.slot := by
  cases command with
  | mount slot backdrops adjustment options =>
    cases h
    rfl
  | mountWith slot backdrops settings detected =>
    cases hread : Settings.read settings with
    | ok settings =>
      simp only [lease?, hread, Option.some.injEq] at h
      rw [← h]
      rfl
    | error error => simp [lease?, hread] at h
  | _ => cases h

theorem slot_eq_of_lease {command : Command} {lease : Lease} {slot : Nat}
    (hlease : command.lease? = some lease) (hends : command.ends? = some slot) :
    lease.slot = slot :=
  Option.some.inj ((ends_of_lease hlease).symm.trans hends)

theorem slot_of_ends {command : Command} {slot : Nat} (h : command.ends? = some slot) :
    command.slot? = some slot := by
  cases command with
  | mount | mountWith | drop | handBack => exact h
  | _ => cases h

theorem lease_of_not_ends {command : Command} (h : command.ends? = none) :
    command.lease? = none := by
  cases hlease : command.lease? with
  | none => rfl
  | some lease => simp [ends_of_lease hlease] at h

end Command

theorem ledger_of_lease (live : List Lease) {command : Command} {lease : Lease}
    (h : command.lease? = some lease) :
    ledger live command = evict live lease.slot ++ [lease] := by
  simp [ledger, Command.ends_of_lease h, h]

theorem ledger_of_ends (live : List Lease) {command : Command} {slot : Nat}
    (hlease : command.lease? = none) (hends : command.ends? = some slot) :
    ledger live command = evict live slot := by
  simp [ledger, hlease, hends]

theorem ledger_of_not_ends (live : List Lease) {command : Command} (h : command.ends? = none) :
    ledger live command = live := by
  simp [ledger, Command.lease_of_not_ends h, h]

theorem tenant_evict (live : List Lease) (slot other : Nat) :
    tenant? (evict live slot) other = if other = slot then none else tenant? live other := by
  unfold tenant? evict
  rw [List.find?_filter]
  split
  · next h =>
    subst h
    simp
  · next h =>
    congr 1
    funext lease
    by_cases heq : lease.slot = other
    · simp [heq, h]
    · simp [heq]

theorem tenant_append_singleton (live : List Lease) (lease : Lease) (other : Nat) :
    tenant? (live ++ [lease]) other =
      (tenant? live other).or (if other = lease.slot then some lease else none) := by
  simp only [tenant?, List.find?_append, List.find?_cons, List.find?_nil, eq_comm (a := other)]
  congr 1
  by_cases h : lease.slot = other
  · simp [h]
  · simp [h]

namespace Stage

variable (stage : Stage)

-- A command that mounts an overlay first clears its slot.
theorem step_of_lease {command : Command} {lease : Lease} (h : command.lease? = some lease) :
    (stage.step command).2 = (stage.clear lease.slot).lodge lease := by
  cases command with
  | mount slot backdrops adjustment options =>
    cases h
    rfl
  | mountWith slot backdrops settings detected =>
    cases hread : Settings.read settings with
    | ok settings =>
      simp only [Command.lease?, hread, Option.some.injEq] at h
      simp only [step, hread, ← h]
      rfl
    | error error => simp [Command.lease?, hread] at h
  | _ => cases h

-- Any other command that takes an overlay down clears its slot, and does nothing else.
theorem step_of_ends {command : Command} {slot : Nat} (hlease : command.lease? = none)
    (hends : command.ends? = some slot) : (stage.step command).2 = stage.clear slot := by
  cases command with
  | mount slot backdrops adjustment options => cases hlease
  | mountWith other backdrops settings detected =>
    cases hends
    cases hread : Settings.read settings with
    | ok settings => simp [Command.lease?, hread] at hlease
    | error error => simp only [step, hread]
  | drop other =>
    cases hends
    rfl
  | handBack other =>
    cases hends
    cases hslot : stage.slots slot with
    | none => simp only [step, clear, hslot]
    | some overlay => simp only [step, clear, hslot, handBack_eq]
  | _ => cases hends

theorem slots_clear (slot other : Nat) :
    (stage.clear slot).slots other = if other = slot then none else stage.slots other := by
  unfold clear
  split
  · rfl
  · next h =>
    split
    · next heq => rw [heq, h]
    · rfl

theorem surface_clear (slot s : Nat) :
    (stage.clear slot).surface? s = (stage.surface? s).map fun surface => { surface with
      padding := (stage.owed slot s).getLastD surface.padding
      paddingWrites := surface.paddingWrites + (stage.owed slot s).length } := by
  unfold clear owed
  split
  · next overlay h =>
    rw [h]
    exact surfaces_unmount stage.board overlay s
  · next h => simp [h]

theorem slots_lodge (lease : Lease) (other : Nat) :
    (stage.lodge lease).slots other = if other = lease.slot then
      some (Mounted.mount lease.backdrops lease.adjustment lease.options stage.board).1
    else stage.slots other :=
  rfl

theorem surface_lodge (lease : Lease) (s : Nat) :
    (stage.lodge lease).surface? s = (stage.surface? s).map fun surface => { surface with
      padding := (Padding.widen lease.adjustment.inset)^[lease.places s] surface.padding
      paddingWrites := surface.paddingWrites + lease.places s } :=
  surfaces_mount stage.board lease s

theorem owed_lodge (lease : Lease) {s : Nat} {surface : Surface}
    (h : stage.surface? s = some surface) : (stage.lodge lease).owed lease.slot s =
      List.iterate (Padding.widen lease.adjustment.inset) surface.padding (lease.places s) := by
  unfold owed
  rw [slots_lodge, if_pos rfl]
  exact savedOf_mount stage.board lease s h

-- A surface stays as it is if nothing is owed to it, or if it is at no place of the list.
theorem surface_clear_of_owed {slot s : Nat} (h : stage.owed slot s = []) :
    (stage.clear slot).surface? s = stage.surface? s := by
  rw [surface_clear, h]
  exact Option.map_id_apply

theorem surface_lodge_of_places {lease : Lease} {s : Nat} (h : lease.places s = 0) :
    (stage.lodge lease).surface? s = stage.surface? s := by
  rw [surface_lodge, h]
  exact Option.map_id_apply

theorem surface_step_of_owed {command : Command} {slot s : Nat} (hends : command.ends? = some slot)
    (howed : stage.owed slot s = []) (hmounts : ∀ lease ∈ command.lease?, lease.places s = 0) :
    (stage.step command).2.surface? s = stage.surface? s := by
  cases hlease : command.lease? with
  | none => rw [stage.step_of_ends hlease hends, stage.surface_clear_of_owed howed]
  | some lease =>
    rw [stage.step_of_lease hlease, surface_lodge_of_places _ (hmounts lease hlease),
      Command.slot_eq_of_lease hlease hends, stage.surface_clear_of_owed howed]

theorem step_count (slot : Nat) : (stage.step (.count slot)).2 = stage := by
  simp only [step]
  split <;> rfl

theorem slots_step_of_not_ends {command : Command} (h : command.ends? = none) :
    (stage.step command).2.slots = stage.slots := by
  have hwith : ∀ slot change, (stage.withSlot slot change).2.slots = stage.slots := by
    intro slot change
    unfold withSlot
    split <;> rfl
  cases command with
  | input slot text => exact hwith slot _
  | scroll slot scroll => exact hwith slot _
  | refresh slot text scroll => exact hwith slot _
  | count slot => rw [step_count]
  | syncScroll scroll targets => rfl
  | _ => cases h

-- Input and scroll calls leave the paddings alone.
theorem edge_step_of_not_ends {command : Command} (h : command.ends? = none) (s : Nat) :
    ((stage.step command).2.surface? s).map Surface.edge =
      (stage.surface? s).map Surface.edge := by
  have hinput : ∀ (overlay : Mounted) (text : String) (board : Board),
      (overlay.input text board).surfaces[s]?.map Surface.edge =
        board.surfaces[s]?.map Surface.edge := by
    intro overlay text board
    rw [surfaces_input, Option.map_map]
    rfl
  have hsync : ∀ (scroll : Scroll) (targets : List Nat) (board : Board),
      (Overlay.syncScroll scroll targets board).surfaces[s]?.map Surface.edge =
        board.surfaces[s]?.map Surface.edge := by
    intro scroll targets board
    rw [surfaces_syncScroll, Option.map_map]
    rfl
  have hwith : ∀ (slot : Nat) (change : Mounted → Board → Board), (∀ overlay board,
      (change overlay board).surfaces[s]?.map Surface.edge =
        board.surfaces[s]?.map Surface.edge) →
      ((stage.withSlot slot change).2.surface? s).map Surface.edge =
        (stage.surface? s).map Surface.edge := by
    intro slot change hchange
    unfold withSlot
    split
    · exact hchange _ stage.board
    · rfl
  cases command with
  | input slot text => exact hwith slot _ fun overlay => hinput overlay text
  | scroll slot scroll => exact hwith slot _ fun overlay => hsync scroll overlay.backdrops
  | refresh slot text scroll =>
    exact hwith slot _ fun overlay board =>
      (hsync scroll overlay.backdrops _).trans (hinput overlay text board)
  | count slot => rw [step_count]
  | syncScroll scroll targets => exact hsync scroll targets stage.board
  | _ => cases h

theorem content_clear (slot s : Nat) :
    ((stage.clear slot).surface? s).map Surface.content =
      (stage.surface? s).map Surface.content := by
  rw [surface_clear, Option.map_map]
  rfl

-- Mounting and unmounting leave everything but the paddings alone.
theorem content_step_of_ends {command : Command} {slot : Nat} (h : command.ends? = some slot)
    (s : Nat) : ((stage.step command).2.surface? s).map Surface.content =
      (stage.surface? s).map Surface.content := by
  cases hlease : command.lease? with
  | none => rw [step_of_ends stage hlease h, content_clear]
  | some lease =>
    rw [step_of_lease stage hlease, surface_lodge, Option.map_map, ← content_clear stage lease.slot]
    rfl

end Stage

theorem Lease.matches_mount (lease : Lease) (board : Board) : lease.Matches
    (Mounted.mount lease.backdrops lease.adjustment lease.options board).1 where
  backdrops := rfl
  options := rfl
  saved s h := savedOf_eq_nil board lease s h

namespace Stage.Holds

variable {stage : Stage} {live : List Lease} (holds : stage.Holds live)
include holds

theorem clear (slot : Nat) : (stage.clear slot).Holds (evict live slot) := by
  intro other
  rw [tenant_evict, stage.slots_clear]
  split
  · exact .none
  · exact holds other

theorem lodge {lease : Lease} (h : tenant? live lease.slot = none) :
    (stage.lodge lease).Holds (live ++ [lease]) := by
  intro other
  rw [tenant_append_singleton, stage.slots_lodge]
  split
  · next heq =>
    rw [heq, h]
    exact .some (lease.matches_mount stage.board)
  · rw [Option.or_none]
    exact holds other

theorem step (command : Command) : (stage.step command).2.Holds (ledger live command) := by
  cases hends : command.ends? with
  | none =>
    rw [ledger_of_not_ends live hends]
    intro slot
    rw [stage.slots_step_of_not_ends hends]
    exact holds slot
  | some slot =>
    cases hlease : command.lease? with
    | none =>
      rw [ledger_of_ends live hlease hends, stage.step_of_ends hlease hends]
      exact holds.clear slot
    | some lease =>
      rw [ledger_of_lease live hlease, stage.step_of_lease hlease]
      exact (holds.clear lease.slot).lodge (by simp [tenant_evict])

-- Nothing is owed to a surface that the overlay in the slot does not inset.
theorem owed_eq_nil {slot s : Nat} (h : ∀ lease ∈ tenant? live slot, lease.places s = 0) :
    stage.owed slot s = [] := by
  have hslot := holds slot
  unfold Stage.owed
  cases hslots : stage.slots slot with
  | none => rfl
  | some overlay =>
    rw [hslots] at hslot
    generalize htenant : tenant? live slot = tenant at hslot
    cases hslot with
    | some hmatches => exact hmatches.saved s (h _ htenant)

end Stage.Holds

theorem holds_run (board : Board) (commands : List Command) :
    ((Stage.ofBoard board).run commands).Holds (liveAfter commands) := by
  induction commands using List.reverseRecOn with
  | nil => exact fun _ => .none
  | append_singleton commands command ih =>
    rw [liveAfter_append_singleton, Stage.run_append_singleton]
    exact ih.step command

end CodePanel.Overlay
