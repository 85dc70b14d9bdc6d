import ReleaseHistory.Proofs.WorkTree.Ready
import ReleaseHistory.Replay

/-!
# Replays in repositories that are ready

The parts of a replay succeed in a repository that is ready, and leave it ready, as long as files
have plain names, times can be stored and names are free.
-/

namespace ReleaseHistory.Repository

open Operation Git
open FileTree (Plain)

variable {s : Store} {r : Repository} {settings : Replay.Settings} {message time full version : String}
  {signature : Signature}

theorem plain_documentFile : Plain Replay.documentFile ∧ Replay.documentFile ≠ FileTree.storeName := by
  decide

theorem plain_ignoreFile : Plain Replay.ignoreFile ∧ Replay.ignoreFile ≠ FileTree.storeName := by
  decide

theorem plain_changesFile : Plain Replay.changesFile ∧ Replay.changesFile ≠ FileTree.storeName := by
  decide

theorem plain_versionFile : Plain Replay.versionFile ∧ Replay.versionFile ≠ FileTree.storeName := by
  decide

theorem nul_notMem_releaseMessage (h : '\x00' ∉ version.toList) :
    '\x00' ∉ (Replay.releaseMessage version).toList := by
  have hparts : Replay.releaseMessage version =
      version ++ "\n\nAutomatically generated by repo-fixtures" := rfl
  rw [hparts, String.toList_append, List.mem_append]
  exact not_or.2 ⟨h, by decide⟩

theorem Ready.exists_addChange [Git.Merger] (h : Ready s r) (message : String) :
    ∃ text, on (Replay.addChange message) r = (.ok (), r.withFile Replay.changesFile text) := by
  obtain ⟨hname, hstore⟩ := plain_changesFile
  obtain ⟨found, hread⟩ := h.exists_readText hname hstore
  refine ⟨found.getD "" ++ Text.firstLine message ++ "\n", ?_⟩
  rw [Replay.addChange, on_bind_of_ok hread, h.on_writeText hname hstore]

theorem Ready.exists_changelog [Git.Merger] (h : Ready s r) (f : ChangelogFile)
    (hname : Plain f.path) (hstore : f.path ≠ FileTree.storeName) (fs : List ChangelogFile) :
    ∃ text, on (Replay.changelogs settings version (f :: fs)) r =
      on (Replay.changelogs settings version fs) (r.withFile f.path text) := by
  obtain ⟨found, hread⟩ := h.exists_readText hname hstore
  refine ⟨Changelog.update f.format found (settings.tagFormat.name version)
    settings.maskInitialRelease, ?_⟩
  rw [Replay.changelogs, on_bind_of_ok hread, on_bind_of_ok (h.on_writeText hname hstore _)]

/-- Changelogs with plain names are written in one repository that is ready after the other. -/
theorem Ready.exists_changelogs [Git.Merger] (h : Ready s r) {fs : List ChangelogFile}
    (hfs : ∀ f ∈ fs, Plain f.path ∧ f.path ≠ FileTree.storeName) :
    ∃ r', on (Replay.changelogs settings version fs) r = (.ok (), r') ∧ Ready s r' := by
  induction fs generalizing r with
  | nil => exact ⟨r, rfl, h⟩
  | cons f fs ih =>
    obtain ⟨⟨hname, hstore⟩, hrest⟩ := List.forall_mem_cons.1 hfs
    obtain ⟨text, hfirst⟩ := h.exists_changelog f hname hstore fs
    obtain ⟨r', hr', hready⟩ := ih (h.withFile hname hstore text) hrest
    exact ⟨r', hfirst.trans hr', hready⟩

theorem Ready.on_configure [Git.Merger] (h : Ready s r) {c : Configuration} {f : TagFormat}
    {text : String} (hf : TagFormat.ofOption c.tagPattern = .ok f)
    (htext : ReleaseDocument.text c f = .ok text) :
    on (Replay.configure c) r = (.ok ⟨f, c.maskInitialRelease⟩,
      (r.withFile Replay.documentFile text).withFile Replay.ignoreFile Replay.ignoreText) := by
  have hready := h.withFile plain_documentFile.1 plain_documentFile.2 text
  have hlift : ∀ {α : Type} (a : α) (r : Repository),
      on (Replay.configure.liftExcept (.ok a)) r = (.ok a, r) := fun _ _ => rfl
  rw [Replay.configure, hf, on_bind_of_ok (hlift f r), htext, on_bind_of_ok (hlift text r),
    on_bind_of_ok (h.on_writeText plain_documentFile.1 plain_documentFile.2 text),
    on_bind_of_ok (hready.on_writeText plain_ignoreFile.1 plain_ignoreFile.2 Replay.ignoreText)]
  rfl

theorem Ready.exists_configure [Git.Merger] (h : Ready s r) {c : Configuration} {f : TagFormat}
    {text : String} (hf : TagFormat.ofOption c.tagPattern = .ok f)
    (htext : ReleaseDocument.text c f = .ok text) :
    ∃ r', on (Replay.configure c) r = (.ok ⟨f, c.maskInitialRelease⟩, r') ∧ Ready s r' := by
  have hready := h.withFile plain_documentFile.1 plain_documentFile.2 text
  exact ⟨_, h.on_configure hf htext,
    hready.withFile plain_ignoreFile.1 plain_ignoreFile.2 Replay.ignoreText⟩

/-- The first commit of a new repository is the only one, and holds all that was staged. -/
theorem Ready.exists_firstCommit [Git.Merger] (h : Ready (.new mainBranch) r) (inChangelog : Bool)
    (hsignature : signatureAt r.identity time = .ok signature)
    (hstorable : signature.isStorable = true) (hmessage : '\x00' ∉ message.toList) :
    ∃ text s, on (Replay.commits [⟨message, time, inChangelog⟩]) r =
        (.ok (), (r.withFile Replay.changesFile text).withStore s) ∧
      Ready s ((r.withFile Replay.changesFile text).withStore s) ∧
      s.head = .branch "refs/heads/main" ∧ s.branches.map (·.1) = ["refs/heads/main"] ∧ s.tags = [] ∧
      (r.withFile Replay.changesFile text).stagedFiles (.new mainBranch) = some s.index ∧
      ∀ n c, s.history.get? n = some c → c.snapshot = s.index := by
  have hhead : (Store.new mainBranch).head = .branch "refs/heads/main" := rfl
  obtain ⟨text, hadd⟩ := h.exists_addChange message
  have hadded := h.withFile plain_changesFile.1 plain_changesFile.2 text
  obtain ⟨index, id, hindex, -, -, hcommit⟩ :=
    hadded.exists_commit hhead rfl hsignature hstorable hmessage
  refine ⟨text, _, (on_bind_of_ok hadd).trans (on_bind_of_ok hcommit), hadded.withStore _,
    (Store.setTip_head ..).trans hhead, rfl, Store.setTip_tags .., ?_, ?_⟩
  · rw [Store.committed, Store.setTip_index]
    exact hindex
  · intro n c hget
    rw [Store.committed, Store.setTip_history] at hget
    rcases History.get?_add_cases hget with hold | rfl
    · cases hold
    · rw [Store.committed, Store.setTip_index]

/-- The store after a release: its commit, and a tag on it. -/
def releasedStore (s : Store) (full key name : String) (c : CommitObject) : Store :=
  { s.committed full c with
    tags := (key, ⟨name, (s.history.add c).1, c.signature, name⟩) :: s.tags }

theorem Ready.exists_publish [Git.Merger] (h : Ready s r) {key : String}
    (hhead : s.head = .branch full)
    (hroom : Store.hasRoom full ((s.branches.map (·.1)).filter (· ≠ full)) = true)
    (hsignature : signatureAt r.identity time = .ok signature)
    (hstorable : signature.isStorable = true) (hversion : '\x00' ∉ version.toList)
    (hname : '\x00' ∉ (settings.tagFormat.name version).toList)
    (hkey : RefName.tag? (settings.tagFormat.name version) = some key)
    (hbegin : RefName.mayBegin (settings.tagFormat.name version) = true)
    (hfree : Store.hasRoom key (s.tags.map (·.1)) = true) :
    ∃ index, (r.withFile Replay.versionFile (version ++ "\n")).stagedFiles s = some index ∧
      index.Flat ∧ commitObject r.identity s index (Replay.releaseMessage version) time =
        .ok ⟨index, (s.commitOf? full).toList, signature, Replay.releaseMessage version⟩ ∧
      on (Replay.publish settings version time) r =
        (.ok (), (r.withFile Replay.versionFile (version ++ "\n")).withStore
          (releasedStore { s with index := index } full key (settings.tagFormat.name version)
            ⟨index, (s.commitOf? full).toList, signature, Replay.releaseMessage version⟩)) := by
  obtain ⟨hplain, hstore⟩ := plain_versionFile
  have hready := h.withFile hplain hstore (version ++ "\n")
  have hmessage := nul_notMem_releaseMessage hversion
  obtain ⟨index, id, hindex, hflat, hobject, hcommit⟩ :=
    hready.exists_commit hhead hroom hsignature hstorable hmessage
  refine ⟨index, hindex, hflat, hobject, ?_⟩
  have hcommit' : on (WorkTree.commit (Replay.releaseMessage version) time)
      (r.withFile Replay.versionFile (version ++ "\n")) = _ := hcommit
  have htip : (({ s with index := index } : Store).committed full ⟨index, (s.commitOf? full).toList,
      signature, Replay.releaseMessage version⟩).headCommit = .ok (some (s.history.add
        ⟨index, (s.commitOf? full).toList, signature, Replay.releaseMessage version⟩).1) := by
    apply Store.headCommit_of_branch
    · rw [Store.committed, Store.setTip_head]
      exact hhead
    · rw [Store.committed, Store.lookup_setTip, if_pos rfl]
  have htags : (({ s with index := index } : Store).committed full ⟨index, (s.commitOf? full).toList,
      signature, Replay.releaseMessage version⟩).tags = s.tags := by
    rw [Store.committed, Store.setTip_tags]
  rw [Replay.publish, on_bind_of_ok (h.on_writeText hplain hstore _), on_bind_of_ok hcommit']
  have htag := (hready.withStore _).on_tag htip hsignature hstorable hname hkey hbegin
    (by rw [htags]; exact hfree)
  rw [withStore_withStore, htags] at htag
  exact htag

end ReleaseHistory.Repository
