import CodePanel.Proofs.Overlay.Leases

namespace CodePanel.Overlay

-- The overlay in a slot, if it lists a surface.
def listing? (live : List Lease) (slot s : Nat) : Option Lease :=
  (tenant? live slot).filter (s ∈ ·.backdrops)

namespace Command

-- The text that a command shows on a surface, and the options that it is shown with.
def shown? (s : Nat) (live : List Lease) : Command → Option (String × Markup.Options)
  | .input slot text => (listing? live slot s).map fun lease => (text, lease.shownWith)
  | .refresh slot text _ => (listing? live slot s).map fun lease => (text, lease.shownWith)
  | _ => none

-- The offsets that a command moves a surface to.
def scrolled? (s : Nat) (live : List Lease) : Command → Option Scroll
  | .scroll slot offsets => (listing? live slot s).map fun _ => offsets
  | .refresh slot _ offsets => (listing? live slot s).map fun _ => offsets
  | .syncScroll offsets targets => if s ∈ targets then some offsets else none
  | _ => none

-- How often a command fills a surface.
def fills (s : Nat) (live : List Lease) : Command → Nat
  | .input slot _ => ((tenant? live slot).map (·.backdrops.count s)).getD 0
  | .refresh slot _ _ => ((tenant? live slot).map (·.backdrops.count s)).getD 0
  | _ => 0

-- The surfaces that a command may reach: those of the overlay in its slot, those of the overlay
-- that it mounts, and its own targets.
def reaches (live : List Lease) (command : Command) : List Nat :=
  ((command.slot?.bind (tenant? live)).map Lease.backdrops).getD [] ++
    (command.lease?.map Lease.backdrops).getD [] ++
    match command with
    | .syncScroll _ targets => targets
    | _ => []

end Command

-- The commands of a run, each with the overlays that were mounted when it came.
def history (live : List Lease) : List Command → List (List Lease × Command)
  | [] => []
  | command :: rest => (live, command) :: history (ledger live command) rest

-- What the most recent command of a run with an effect did.
def latest? (effect? : List Lease → Command → Option α) (commands : List Command) : Option α :=
  (history [] commands).reverse.findSome? fun (live, command) => effect? live command

def showText (shown : String × Markup.Options) : String :=
  Markup.highlight shown.2 shown.1

theorem history_append_singleton (live : List Lease) (commands : List Command) (command : Command) :
    history live (commands ++ [command]) =
      history live commands ++ [(commands.foldl ledger live, command)] := by
  induction commands generalizing live with
  | nil => rfl
  | cons first rest ih => simp only [List.cons_append, history, ih, List.foldl_cons]

theorem latest_append_singleton (effect? : List Lease → Command → Option α)
    (commands : List Command) (command : Command) :
    latest? effect? (commands ++ [command]) =
      (effect? (liveAfter commands) command).or (latest? effect? commands) := by
  unfold latest?
  rw [history_append_singleton, List.reverse_append, List.reverse_singleton,
    List.singleton_append, List.findSome?_cons]
  simp only [liveAfter]
  cases effect? (commands.foldl ledger []) command <;> rfl

theorem listing_of_tenant {live : List Lease} {slot : Nat} {lease : Lease}
    (h : tenant? live slot = some lease) (s : Nat) :
    listing? live slot s = if s ∈ lease.backdrops then some lease else none := by
  simp [listing?, h, Option.filter]

theorem shown_of_ends {command : Command} {slot : Nat} (h : command.ends? = some slot) (s : Nat)
    (live : List Lease) : command.shown? s live = none ∧ command.scrolled? s live = none := by
  cases command with
  | mount | mountWith | drop | handBack => exact ⟨rfl, rfl⟩
  | _ => cases h

theorem not_mem_of_not_reached {live : List Lease} {command : Command} {s : Nat}
    (h : s ∉ command.reaches live) :
    (∀ slot lease, command.slot? = some slot → tenant? live slot = some lease →
      s ∉ lease.backdrops) ∧
    ∀ lease, command.lease? = some lease → s ∉ lease.backdrops := by
  simp only [Command.reaches, List.mem_append, not_or] at h
  refine ⟨fun slot lease hslot htenant => ?_, fun lease hlease => ?_⟩
  · simpa [hslot, htenant] using h.1.1
  · simpa [hlease] using h.1.2

-- A command shows nothing on a surface that it does not reach, and does not move it.
theorem no_effect_of_not_reached {live : List Lease} {command : Command} {s : Nat}
    (h : s ∉ command.reaches live) :
    command.shown? s live = none ∧ command.scrolled? s live = none ∧ command.fills s live = 0 := by
  have hlisting : ∀ slot, command.slot? = some slot → listing? live slot s = none ∧
      ((tenant? live slot).map (·.backdrops.count s)).getD 0 = 0 := by
    intro slot hslot
    cases htenant : tenant? live slot with
    | none => exact ⟨by simp [listing?, htenant], rfl⟩
    | some lease =>
      have hnot := (not_mem_of_not_reached h).1 slot lease hslot htenant
      exact ⟨by simp [listing_of_tenant htenant, hnot], List.count_eq_zero.mpr hnot⟩
  cases command with
  | input slot text =>
    obtain ⟨hnone, hcount⟩ := hlisting slot rfl
    exact ⟨by simp [Command.shown?, hnone], rfl, hcount⟩
  | scroll slot offsets =>
    obtain ⟨hnone, hcount⟩ := hlisting slot rfl
    exact ⟨rfl, by simp [Command.scrolled?, hnone], rfl⟩
  | refresh slot text offsets =>
    obtain ⟨hnone, hcount⟩ := hlisting slot rfl
    exact ⟨by simp [Command.shown?, hnone], by simp [Command.scrolled?, hnone], hcount⟩
  | syncScroll offsets targets =>
    have hnot : s ∉ targets := fun hmem => h (List.mem_append.mpr (.inr hmem))
    exact ⟨rfl, by simp [Command.scrolled?, hnot], rfl⟩
  | _ => exact ⟨rfl, rfl, rfl⟩

-- Refreshing fills the backdrops and then moves them.
theorem Stage.step_refresh (stage : Stage) (slot : Nat) (text : String) (offsets : Scroll) :
    (stage.step (.refresh slot text offsets)).2 =
      ((stage.step (.input slot text)).2.step (.scroll slot offsets)).2 := by
  cases hslot : stage.slots slot with
  | none => simp [step, withSlot, hslot]
  | some overlay => simp [step, withSlot, hslot, Mounted.refresh]

namespace Stage.Holds

variable {stage : Stage} {live : List Lease} (holds : stage.Holds live)
include holds

-- A call goes to the overlay that is in the slot by the terms, or to none.
theorem withSlot_cases (slot : Nat) (change : Mounted → Board → Board) :
    (tenant? live slot = none ∧ (stage.withSlot slot change).2 = stage) ∨
    ∃ lease overlay, tenant? live slot = some lease ∧ lease.Matches overlay ∧
      (stage.withSlot slot change).2.board = change overlay stage.board := by
  have hslot := holds slot
  unfold Stage.withSlot
  generalize htenant : tenant? live slot = tenant at hslot
  generalize hslots : stage.slots slot = mounted at hslot
  cases hslot with
  | none => exact .inl ⟨rfl, rfl⟩
  | some hmatches => exact .inr ⟨_, _, rfl, hmatches, rfl⟩

theorem surface_input (slot : Nat) (text : String) (s : Nat) :
    (stage.step (.input slot text)).2.surface? s = (stage.surface? s).map fun surface =>
      { surface with
        html := (((Command.input slot text).shown? s live).map showText).getD surface.html
        htmlWrites := surface.htmlWrites + (Command.input slot text).fills s live } := by
  simp only [Command.shown?, Command.fills]
  rcases holds.withSlot_cases slot (fun overlay => overlay.input text) with
    ⟨hnone, hstep⟩ | ⟨lease, overlay, hsome, hmatches, hboard⟩
  · have hsame : (stage.step (.input slot text)).2 = stage := hstep
    simp [hsame, listing?, hnone]
  · have hinput : (stage.step (.input slot text)).2.surface? s =
        (overlay.input text stage.board).surfaces[s]? := congrArg (·.surfaces[s]?) hboard
    rw [hinput, surfaces_input, hmatches.backdrops, hmatches.options, listing_of_tenant hsome,
      hsome]
    congr 1
    funext surface
    by_cases hmem : s ∈ lease.backdrops
    · simp [hmem, showText]
    · simp [hmem]

theorem surface_scroll (slot : Nat) (offsets : Scroll) (s : Nat) :
    (stage.step (.scroll slot offsets)).2.surface? s = (stage.surface? s).map fun surface =>
      { surface with
        scroll := ((Command.scroll slot offsets).scrolled? s live).getD surface.scroll } := by
  simp only [Command.scrolled?]
  rcases holds.withSlot_cases slot (fun overlay => overlay.scroll offsets) with
    ⟨hnone, hstep⟩ | ⟨lease, overlay, hsome, hmatches, hboard⟩
  · have hsame : (stage.step (.scroll slot offsets)).2 = stage := hstep
    simp [hsame, listing?, hnone]
  · have hscroll : (stage.step (.scroll slot offsets)).2.surface? s =
        (syncScroll offsets overlay.backdrops stage.board).surfaces[s]? :=
      congrArg (·.surfaces[s]?) hboard
    rw [hscroll, surfaces_syncScroll, hmatches.backdrops, listing_of_tenant hsome]
    congr 1
    funext surface
    by_cases hmem : s ∈ lease.backdrops
    · simp [hmem]
    · simp [hmem]

-- All that a command does to a surface if it neither mounts nor unmounts.
theorem surface_write {command : Command} (h : command.ends? = none) (s : Nat) :
    (stage.step command).2.surface? s = (stage.surface? s).map fun surface =>
      { surface with
        html := ((command.shown? s live).map showText).getD surface.html
        scroll := (command.scrolled? s live).getD surface.scroll
        htmlWrites := surface.htmlWrites + command.fills s live } := by
  cases command with
  | input slot text => exact holds.surface_input slot text s
  | scroll slot offsets => exact holds.surface_scroll slot offsets s
  | refresh slot text offsets =>
    have hinput : (stage.step (.input slot text)).2.Holds live := by
      have hstep := holds.step (.input slot text)
      rwa [ledger_of_not_ends live rfl] at hstep
    rw [stage.step_refresh, hinput.surface_scroll, holds.surface_input, Option.map_map]
    rfl
  | count slot =>
    rw [stage.step_count]
    exact Option.map_id_apply.symm
  | syncScroll offsets targets =>
    refine (surfaces_syncScroll stage.board s offsets targets).trans ?_
    congr 1
    funext surface
    by_cases hmem : s ∈ targets
    · simp [Command.shown?, Command.scrolled?, Command.fills, hmem]
    · simp [Command.shown?, Command.scrolled?, Command.fills, hmem]
  | _ => cases h

theorem surface_step_of_not_reached {command : Command} {s : Nat}
    (h : s ∉ command.reaches live) :
    (stage.step command).2.surface? s = stage.surface? s := by
  cases hends : command.ends? with
  | none =>
    obtain ⟨hshown, hscrolled, hfills⟩ := no_effect_of_not_reached h
    rw [holds.surface_write hends, hshown, hscrolled, hfills]
    exact Option.map_id_apply
  | some slot =>
    obtain ⟨htenant, hlease⟩ := not_mem_of_not_reached h
    have howed : stage.owed slot s = [] := holds.owed_eq_nil fun lease hmem =>
      Lease.places_of_not_mem (htenant slot lease (Command.slot_of_ends hends) hmem)
    exact stage.surface_step_of_owed hends howed fun lease hmounts =>
      Lease.places_of_not_mem (hlease lease hmounts)

theorem html_step (command : Command) (s : Nat) :
    ((stage.step command).2.surface? s).map Surface.html = (stage.surface? s).map fun surface =>
      ((command.shown? s live).map showText).getD surface.html := by
  cases hends : command.ends? with
  | none =>
    rw [holds.surface_write hends, Option.map_map]
    rfl
  | some slot =>
    have hcontent := congrArg (Option.map (·.1)) (stage.content_step_of_ends hends s)
    rw [Option.map_map, Option.map_map] at hcontent
    rw [(shown_of_ends hends s live).1]
    exact hcontent

theorem scroll_step (command : Command) (s : Nat) :
    ((stage.step command).2.surface? s).map Surface.scroll = (stage.surface? s).map fun surface =>
      (command.scrolled? s live).getD surface.scroll := by
  cases hends : command.ends? with
  | none =>
    rw [holds.surface_write hends, Option.map_map]
    rfl
  | some slot =>
    have hcontent := congrArg (Option.map (·.2.1)) (stage.content_step_of_ends hends s)
    rw [Option.map_map, Option.map_map] at hcontent
    rw [(shown_of_ends hends s live).2]
    exact hcontent

end Stage.Holds

theorem html_run (board : Board) (commands : List Command) (s : Nat) :
    (((Stage.ofBoard board).run commands).surface? s).map Surface.html =
      board.surfaces[s]?.map fun surface =>
        ((latest? (Command.shown? s) commands).map showText).getD surface.html := by
  induction commands using List.reverseRecOn with
  | nil => rfl
  | append_singleton commands command ih =>
    rw [Stage.run_append_singleton, (holds_run board commands).html_step, latest_append_singleton]
    cases command.shown? s (liveAfter commands) with
    | none => exact ih
    | some shown =>
      have hconst := congrArg (Option.map fun _ => showText shown) ih
      rw [Option.map_map, Option.map_map] at hconst
      exact hconst

theorem scroll_run (board : Board) (commands : List Command) (s : Nat) :
    (((Stage.ofBoard board).run commands).surface? s).map Surface.scroll =
      board.surfaces[s]?.map fun surface =>
        (latest? (Command.scrolled? s) commands).getD surface.scroll := by
  induction commands using List.reverseRecOn with
  | nil => rfl
  | append_singleton commands command ih =>
    rw [Stage.run_append_singleton, (holds_run board commands).scroll_step, latest_append_singleton]
    cases command.scrolled? s (liveAfter commands) with
    | none => exact ih
    | some offsets =>
      have hconst := congrArg (Option.map fun _ => offsets) ih
      rw [Option.map_map, Option.map_map] at hconst
      exact hconst

-- Whatever is mounted, unmounted and shown in a run, a surface has the markup of the latest text
-- that reached it and the offsets of the latest scroll that did, or those it started with. The next
-- command changes the padding only if it mounts or unmounts, all else only if it does not, and
-- nothing of a surface that it does not list.
theorem surfaces_mirror_latest (board : Board) (commands : List Command) (s : Nat) :
    let stage := (Stage.ofBoard board).run commands
    (stage.surface? s).map Surface.html = board.surfaces[s]?.map (fun surface =>
      match latest? (Command.shown? s) commands with
      | some (text, options) => Markup.highlight options text
      | none => surface.html) ∧
    (stage.surface? s).map Surface.scroll = board.surfaces[s]?.map (fun surface =>
      (latest? (Command.scrolled? s) commands).getD surface.scroll) ∧
    ∀ command,
      (command.ends?.isSome → ((stage.step command).2.surface? s).map Surface.content =
        (stage.surface? s).map Surface.content) ∧
      (command.ends? = none → ((stage.step command).2.surface? s).map Surface.edge =
        (stage.surface? s).map Surface.edge) ∧
      (s ∉ command.reaches (liveAfter commands) →
        (stage.step command).2.surface? s = stage.surface? s) := by
  intro stage
  refine ⟨?_, scroll_run board commands s, fun command => ⟨fun hends => ?_, fun hends => ?_, ?_⟩⟩
  · rw [html_run]
    cases latest? (Command.shown? s) commands <;> rfl
  · obtain ⟨slot, hslot⟩ := Option.isSome_iff_exists.mp hends
    exact stage.content_step_of_ends hslot s
  · exact stage.edge_step_of_not_ends hends s
  · exact (holds_run board commands).surface_step_of_not_reached

end CodePanel.Overlay
