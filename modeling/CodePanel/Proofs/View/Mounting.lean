import CodePanel.Proofs.Page.Resolving
import CodePanel.Proofs.View.Steps

namespace CodePanel

open Asset Map

theorem openCanvas_ok {page : Page} {id : String} {n : Nat} (h : page.openCanvas id = .ok n) :
    ∃ element, page.elements[n]? = some element ∧ element.id = id := by
  unfold Page.openCanvas Page.lookup at h
  apply Page.id_of_find
  split at h
  · cases h
  · rename_i m hm
    have hn : m = n := by
      split at h
      · cases h
      · split at h
        · exact Except.ok.inj h
        all_goals cases h
    split at hm
    · cases hm
    · rename_i hfind
      split at hm
      · cases hm
        rw [hfind, hn]
      · cases hm

theorem resolveView_ok {page : Page} {settings : Settings} {canvas overlay : Nat}
    (h : page.resolveView settings = .ok (canvas, overlay)) :
    canvas ≠ overlay ∧ canvas < page.elements.length ∧ overlay < page.elements.length := by
  unfold Page.resolveView at h
  split at h
  · cases h
  · rename_i hvalid
    split at h
    · cases h
    · split at h
      · cases h
      · rename_i hcanvas
        split at h
        · cases h
        · rename_i hoverlay
          cases h
          obtain ⟨base, hbase, hbaseId⟩ := openCanvas_ok hcanvas
          obtain ⟨top, htop, htopId⟩ := openCanvas_ok hoverlay
          refine ⟨?_, (List.getElem?_eq_some_iff.1 hbase).1, (List.getElem?_eq_some_iff.1 htop).1⟩
          intro hsame
          rw [hsame, htop] at hbase
          unfold Settings.validate at hvalid
          rw [if_pos (hbaseId.symm.trans ((Option.some.inj hbase) ▸ htopId))] at hvalid
          cases hvalid

theorem faults_of_load_ok {self : LoaderName} {loader : Loader κ} {page : Page} {name : String}
    (hname : loader.cache.find? name = none) (h : (loader.load self page [name]).1.isOk) :
    page.faults.image = none := by
  have hprune : page.Change (fun _ => False) (fun _ => False) (fun _ => False) _ :=
    .prune self loader
  have hcache : (loader.prune self page).1.cache = loader.cache := rfl
  cases hfault : (loader.prune self page).2.faults.image with
  | none => rw [← hprune.faults, hfault]
  | some thrown =>
    simp only [Loader.load, hcache, Cache.request, hname, Loader.start, Page.addImage, hfault] at h
    cases h

-- A view that has just been mounted waits for its marker alone.
theorem View.sound_mount {refusing : Nat → Prop} {slot : Nat} {settings : Settings}
    {page after : Page} {view : View}
    (hsilent : ∀ target, ∀ listener ∈ page.listeners target,
      listener.ofLoader (.view slot) = false)
    (h : View.mount slot settings page = .ok (view, after)) : view.Sound refusing slot after := by
  have hchange : page.Change (after.Answers refusing slot) refusing (fun _ => True) after :=
    .mountView (fun name n image himage hthrows => answers_of_not_throwing himage hthrows name)
      nofun nofun h
  obtain ⟨canvas, overlay, hresolve, hok, rfl, _⟩ := mount_cases h
  obtain ⟨hapart, hcanvas, hoverlay⟩ := resolveView_ok hresolve
  have hcache := cache_load (.view slot)
    ({ base := settings.assetBase, extension := settings.assetExtension } : Loader Unit) page
    [settings.highlightAsset]
  refine ⟨hapart, ?_, ?_, ?_, ?_, ?_, ?_⟩
  · rwa [hchange.elements]
  · rwa [hchange.elements]
  · rw [hchange.faults]
    exact faults_of_load_ok rfl hok
  · intro target listener hlistener
    rcases hchange.listeners target listener hlistener with hold | hnew
    · intro name n heq
      have hloader := hsilent target listener hold
      rw [heq] at hloader
      simp [Listener.ofLoader] at hloader
    · exact hnew
  · intro name n hname
    rw [hcache] at hname
    cases Cache.find_of_loaded_request _ hname
  · rw [hcache]
    exact Cache.knows_request _ (.inr (List.mem_singleton.2 rfl))

end CodePanel
