import ReleaseHistory.Proofs.Cache.Place
import ReleaseHistory.Proofs.FileTree.Overlay

/-!
# Copying out of a cache

A repository is copied into a fresh directory outside of the cache. The place of the cache is seen
as it was, and the directory shows what the repository shows.
-/

namespace ReleaseHistory.CacheSession

open Operation FileTree

variable {t u : FileTree} {base start place : Location} {root name target : String}
  {ps : List String}

/-- A directory outside of the place of a cache, not made yet or with nothing in it. No way that is
made for the cache or for the directory itself goes below the directory. -/
structure FreshTarget (t : FileTree) (base : Location) (root target : String) (place : Location) :
    Prop where
  way : ∀ k ∈ t.way base target, ¬place <+: k
  apart : ∀ into, t.lead? base target = some into → ¬place <+: into
  vacant : ∀ into, t.lead? base target = some into → t.Vacant into
  outside : ∀ into, t.lead? base target = some into → t.OutsideStores into
  above : ∀ into, t.lead? base target = some into →
    ∀ k ∈ place :: t.way base root ++ t.way base target, ∀ w, w ≠ [] → k ≠ into ++ w

theorem FreshTarget.not_place {into : Location} (h : FreshTarget t base root target place)
    (hinto : t.lead? base target = some into) (w : Location) : ¬place <+: into ++ w := by
  intro hplace
  rcases List.prefix_or_prefix_of_prefix hplace (List.prefix_append into w) with hle | ⟨w', hw'⟩
  · exact h.apart into hinto hle
  · by_cases hnil : w' = []
    · subst hnil
      exact h.apart into hinto ⟨[], by simpa using hw'.symm⟩
    · exact h.above into hinto place (by simp) w' hnil hw'.symm

theorem FreshTarget.rebuilt (h : FreshTarget t base root target place)
    (ha : Anchor t base root start ps place) (hr : Rebuilt t u start ps place name) :
    FreshTarget u base root target place := by
  have hnot : ∀ into, t.lead? base target = some into → ∀ w, ¬place ++ [name] <+: into ++ w :=
    fun into hinto w hpre => h.not_place hinto w ((List.prefix_append place [name]).trans hpre)
  refine ⟨?_, ?_, ?_, ?_, ?_⟩
  · rw [way_congr hr.mount]
    exact h.way
  · rw [lead?_congr hr.mount]
    exact h.apart
  · rw [lead?_congr hr.mount]
    intro into hinto w hw
    rcases hr.others (into ++ w) (hnot into hinto w) with heq | ⟨-, -, hmem⟩
    · rw [heq, h.vacant into hinto w hw]
    · have hway : into ++ w ∈ place :: t.way base root ++ t.way base target := by
        simp [ha.way hmem]
      exact absurd rfl (h.above into hinto _ hway w hw)
  · rw [lead?_congr hr.mount]
    intro into hinto k s hk hs
    obtain ⟨w, hw⟩ := hk
    have hk : ¬place ++ [name] <+: k := by
      intro hpre
      refine hnot into hinto [] ?_
      rw [List.append_nil, ← hw]
      exact hpre.trans (List.prefix_append ..)
    rcases hr.others k hk with heq | ⟨-, hdir, -⟩
    · exact h.outside into hinto k s ⟨w, hw⟩ (heq ▸ hs)
    · rw [hdir] at hs
      cases hs
  · rw [lead?_congr hr.mount, way_congr hr.mount, way_congr hr.mount]
    exact h.above

theorem FreshTarget.get?_of_grown (h : FreshTarget t base root target place)
    (hgrown : Grown t u (t.way base target)) {k : Location} (hk : place <+: k) :
    u.get? k = t.get? k := by
  rcases hgrown.seen k with heq | ⟨-, -, hmem⟩
  · exact heq
  · exact absurd hk (h.way k hmem)

theorem FreshTarget.vacant_of_grown {into : Location} (h : FreshTarget t base root target place)
    (hgrown : Grown t u (t.way base target)) (hinto : t.lead? base target = some into) :
    u.Vacant into := by
  intro w hw
  rcases hgrown.seen (into ++ w) with heq | ⟨-, -, hmem⟩
  · rw [heq, h.vacant into hinto w hw]
  · exact absurd rfl (h.above into hinto _ (List.mem_append_right _ hmem) w hw)

theorem on_copyRepository_fresh (h : FreshTarget t base root target place)
    (ha : Anchor t base root start ps place) (hg : Ground t start ps place)
    (hs : Standing t start ps place) (hname : Plain name)
    (hentry : t.get? (place ++ [name]) = some .directory)
    (hrepository : t.get? (place ++ [name, repositoryName]) = some .directory) :
    ∃ r v, on (copyDirectory base (Path.join (Path.join root name) repositoryName) target) t =
        (r, v) ∧ v.WellFormed ∧ v.mount = t.mount ∧ (∀ k, place <+: k → v.get? k = t.get? k) ∧
      (∀ k s, k <+: place → v.get? k = some (.store s) → t.get? k = some (.store s)) ∧
      (∀ k, t.isDirectory k = true → v.isDirectory k = true) ∧
      (r = .ok () → ∃ into, v.locate? base target = some into ∧ ∀ w, w ≠ [] →
        v.get? (into ++ w) = t.get? (place ++ [name, repositoryName] ++ w)) := by
  rcases hmade : on (createDirectory base target) t with ⟨r, u⟩
  have hgrown := grown_createDirectory hg.wellFormed hmade
  have hplace : ∀ k, place <+: k → u.get? k = t.get? k := fun k => h.get?_of_grown hgrown
  cases r with
  | error e =>
    refine ⟨.error e, u, ?_, hgrown.wellFormed, hgrown.mount, hplace, fun k s _ => hgrown.store,
      fun k => hgrown.isDirectory, by simp⟩
    rw [copyDirectory, on_bind_of_error hmade]
  | ok into =>
    have hinto := lead?_of_createDirectory hg.wellFormed hmade
    have hvacant := h.vacant_of_grown hgrown hinto
    have hentry' := (hplace _ (List.prefix_append ..)).trans hentry
    have hrepository' := (hplace _ (List.prefix_append ..)).trans hrepository
    have hout : u.OutsideStores (place ++ [name, repositoryName]) := by
      refine outside_file (hgrown.outsideStores hg.outside) hentry' fun s hs => ?_
      rw [hrepository'] at hs
      cases hs
    have hstanding : Standing u start ps place :=
      hs.mono ha.apart fun k _ => hgrown.isDirectory
    have hfind := (ha.congr hgrown.mount).find?_file hgrown.wellFormed hstanding hname
      plain_repositoryName hentry' hrepository'
    have hapart : ¬place ++ [name, repositoryName] <+: into := fun hpre =>
      h.apart into hinto ((List.prefix_append ..).trans hpre)
    obtain ⟨v, hon, hv, hmount, hcopied, hother⟩ := on_copyDirectory hg.wellFormed hmade hfind
      hapart hvacant (hgrown.outsideStores (h.outside into hinto)) hout
    have hstay : ∀ k, u.isDirectory k = true → v.isDirectory k = true := by
      intro k hk
      rw [FileTree.isDirectory, hother, ← FileTree.isDirectory, hk]
      rintro w hw rfl
      simp [FileTree.isDirectory, hvacant w hw] at hk
    refine ⟨.ok (), v, hon, hv, hmount.trans hgrown.mount, fun k hk => ?_, fun k s hk hs => ?_,
      fun k hk => hstay k (hgrown.isDirectory hk), fun _ => ⟨into, ?_, fun w hw => ?_⟩⟩
    · rw [hother, hplace k hk]
      rintro w hw rfl
      exact h.not_place hinto w hk
    · rw [hother] at hs
      · exact hgrown.store hs
      · rintro w hw rfl
        obtain ⟨w', hw'⟩ := hk
        refine h.above into hinto place (by simp) (w ++ w') (by simp [hw]) ?_
        rw [← hw', List.append_assoc]
    · exact locate?_mono (locate?_of_createDirectory hg.wellFormed hmade) hmount hstay
    · rw [hcopied w hw, hplace]
      rw [List.append_assoc]
      exact List.prefix_append ..

end ReleaseHistory.CacheSession
