import ReleaseHistory.Proofs.FileTree.Route
import ReleaseHistory.Proofs.WorkTree.Preservation
import ReleaseHistory.Proofs.WorkTree.Trace

/-!
# What a replay keeps of a repository

Each part of a replay leaves an intact repository intact and loses nothing that is there. Only
checkouts change which branch is checked out, and only releases make tags.
-/

namespace ReleaseHistory.Repository

open Operation Git Traced
open FileTree (Plain)

variable {start r r' : Repository} {s : Store} {objects : List Encoded} {full message : String}
  {settings settings' : Replay.Settings}

/-! ### What is gathered from calls -/

section Gathering

variable {α β : Type} {gather : Repository → List WorkTree.Call → List β} {found : List β}

/-- What is gathered from calls is gathered from them one after the other. -/
def Gathers [Git.Merger] (gather : Repository → List WorkTree.Call → List β) : Prop :=
  ∀ r calls more,
    gather r (calls ++ more) = gather r calls ++ gather (WorkTree.after r calls) more

/-- What is gathered from the calls of an operation is among some things. -/
def Among (gather : Repository → List WorkTree.Call → List β) (found : List β)
    (x : Operation (Traced Repository) α) (r : Repository) : Prop :=
  ∀ b ∈ gather r (callsOf x r), b ∈ found

section Sequences

variable {γ : Type} {x : Operation (Traced Repository) α} {y : Operation Repository α}
  {f : α → Operation (Traced Repository) γ} {g : α → Operation Repository γ} {a : α}

theorem Among.left [Git.Merger] (h : Among gather found (x >>= f) r) (hgather : Gathers gather)
    (hx : Traces x y) (hf : ∀ a, Traces (f a) (g a)) : Among gather found x r := by
  intro b hb
  rcases hy : on y r with ⟨result, r'⟩
  cases result with
  | error fault => exact h b (by rwa [hx.callsOf_bind_of_error hy])
  | ok a =>
    apply h
    rw [hx.callsOf_bind_of_ok hf hy, hgather]
    exact List.mem_append_left _ hb

theorem Among.right [Git.Merger] (h : Among gather found (x >>= f) r) (hgather : Gathers gather)
    (hx : Traces x y) (hf : ∀ a, Traces (f a) (g a)) (hy : on y r = (.ok a, r')) :
    Among gather found (f a) r' := by
  intro b hb
  apply h
  rw [hx.callsOf_bind_of_ok hf hy, hgather, hx.after_callsOf, hy]
  exact List.mem_append_right _ hb

theorem callsOf_record (call : WorkTree.Call) (r : Repository) : callsOf (record call y) r = [call] := by
  rw [callsOf, on_record]
  rfl

end Sequences

section Parts

variable {r₁ : Repository} {a : Action} {as first : List Action} {c : Commit} {cs : List Commit}
  {version time : String}

theorem Among.ofRun [Git.Merger] {d : Definition} (h : Among gather found (Replay.run d) r)
    (hgather : Gathers gather) : Among gather found (Replay.actAll .default d) r := by
  rw [Replay.run] at h
  exact h.left hgather (Replay.traces_actAll .default d) fun _ => traces_pure ()

theorem Among.ofMerge [Git.Merger] {m : Merge}
    (h : Among gather found (Replay.act settings (.merge m)) r)
    (hgather : Gathers gather) : Among gather found (Replay.merge m) r := by
  rw [Replay.act] at h
  exact h.left hgather (Replay.traces_merge m) fun _ => traces_pure settings

theorem Among.ofCommits [Git.Merger] (h : Among gather found (Replay.act settings (.commits cs)) r)
    (hgather : Gathers gather) : Among gather found (Replay.commits cs) r := by
  rw [Replay.act] at h
  exact h.left hgather (Replay.traces_commits cs) fun _ => traces_pure settings

theorem Among.ofRelease [Git.Merger]
    (h : Among gather found (Replay.act settings (.release version time first)) r)
    (hgather : Gathers gather) (hfirst : on (Replay.actAll settings first) r = (.ok settings', r₁)) :
    Among gather found (Replay.publish settings' version time) r₁ := by
  rw [Replay.act] at h
  have hpublish := fun s => Replay.traces_publish (σ := Repository) s version time
  have hlater := h.right hgather (Replay.traces_actAll settings first)
    (fun s => (hpublish s).bind fun _ => traces_pure s) hfirst
  exact hlater.left hgather (hpublish settings') fun _ => traces_pure settings'

theorem Among.head [Git.Merger] (h : Among gather found (Replay.actAll settings (a :: as)) r)
    (hgather : Gathers gather) : Among gather found (Replay.act settings a) r := by
  rw [Replay.actAll] at h
  exact h.left hgather (Replay.traces_act settings a) fun s => Replay.traces_actAll s as

theorem Among.tail [Git.Merger] (h : Among gather found (Replay.actAll settings (a :: as)) r)
    (hgather : Gathers gather) (hact : on (Replay.act settings a) r = (.ok settings', r₁)) :
    Among gather found (Replay.actAll settings' as) r₁ := by
  rw [Replay.actAll] at h
  exact h.right hgather (Replay.traces_act settings a) (fun s => Replay.traces_actAll s as) hact

/-- The first of some commits is made after its change is added, and the others after it. -/
theorem Among.commits_cons [Git.Merger] (h : Among gather found (Replay.commits (c :: cs)) r)
    (hgather : Gathers gather) (hadd : on (Replay.addChange c.message) r = (.ok (), r₁)) :
    (∀ b ∈ gather r₁ [.commit c.message c.datetime], b ∈ found) ∧ ∀ id r₂,
      on (WorkTree.commit c.message c.datetime) r₁ = (.ok id, r₂) →
        Among gather found (Replay.commits cs) r₂ := by
  rw [Replay.commits] at h
  have hcommit := Replay.traces_commit (σ := Repository) c.message c.datetime
  have hrest := fun _ : String => Replay.traces_commits (σ := Repository) cs
  have hlater := h.right hgather (Replay.traces_addChange c.message) (fun _ => hcommit.bind hrest) hadd
  refine ⟨?_, fun _ _ hon => hlater.right hgather hcommit hrest hon⟩
  rw [← callsOf_record]
  exact hlater.left hgather hcommit hrest

theorem Among.publish [Git.Merger] (h : Among gather found (Replay.publish settings version time) r)
    (hgather : Gathers gather)
    (hwrite : on (WorkTree.writeText Replay.versionFile (version ++ "\n")) r = (.ok (), r₁)) :
    ∀ b ∈ gather r₁ [.commit (Replay.releaseMessage version) time], b ∈ found := by
  rw [Replay.publish] at h
  have hcommit := Replay.traces_commit (σ := Repository) (Replay.releaseMessage version) time
  have htag := fun _ : String => Replay.traces_tag (σ := Repository)
    (settings.tagFormat.name version) (settings.tagFormat.name version) time
  have hlater := h.right hgather (Replay.traces_writeText Replay.versionFile (version ++ "\n"))
    (fun _ => hcommit.bind htag) hwrite
  rw [← callsOf_record]
  exact hlater.left hgather hcommit htag

end Parts

end Gathering

/-! ### Offered commits -/

/-- The commits that an operation offers to the store are among some objects. -/
def Offers [Git.Merger] {α : Type} (objects : List Encoded) (x : Operation (Traced Repository) α)
    (r : Repository) : Prop :=
  ∀ e ∈ r.written (callsOf x r), e ∈ objects

theorem gathers_written [Git.Merger] : Gathers written := written_append

section Sequences

variable {α β : Type} {x : Operation (Traced Repository) α} {y : Operation Repository α}
  {f : α → Operation (Traced Repository) β} {g : α → Operation Repository β} {a : α}

theorem Offers.left [Git.Merger] (h : Offers objects (x >>= f) r) (hx : Traces x y)
    (hf : ∀ a, Traces (f a) (g a)) : Offers objects x r :=
  Among.left h gathers_written hx hf

theorem Offers.right [Git.Merger] (h : Offers objects (x >>= f) r) (hx : Traces x y)
    (hf : ∀ a, Traces (f a) (g a)) (hy : on y r = (.ok a, r')) : Offers objects (f a) r' :=
  Among.right h gathers_written hx hf hy

theorem written_singleton [Git.Merger] {call : WorkTree.Call} :
    (∀ e ∈ r.written [call], e ∈ objects) ↔ ∀ e ∈ r.offered? call, e ∈ objects := by
  rw [written, written, List.append_nil]
  simp only [Option.mem_toList, Option.mem_def]

theorem offers_record [Git.Merger] {call : WorkTree.Call} :
    Offers objects (record call y) r ↔ ∀ e ∈ r.offered? call, e ∈ objects := by
  rw [Offers, callsOf_record, written_singleton]

end Sequences

section Parts

variable {r₁ : Repository} {a : Action} {as first : List Action} {c : Commit} {cs : List Commit}
  {version time : String}

theorem Offers.ofRun [Git.Merger] {d : Definition} (h : Offers objects (Replay.run d) r) :
    Offers objects (Replay.actAll .default d) r :=
  Among.ofRun h gathers_written

theorem Offers.ofMerge [Git.Merger] {m : Merge}
    (h : Offers objects (Replay.act settings (.merge m)) r) :
    Offers objects (Replay.merge m) r :=
  Among.ofMerge h gathers_written

theorem Offers.ofCommits [Git.Merger] (h : Offers objects (Replay.act settings (.commits cs)) r) :
    Offers objects (Replay.commits cs) r :=
  Among.ofCommits h gathers_written

theorem Offers.ofRelease [Git.Merger]
    (h : Offers objects (Replay.act settings (.release version time first)) r)
    (hfirst : on (Replay.actAll settings first) r = (.ok settings', r₁)) :
    Offers objects (Replay.publish settings' version time) r₁ :=
  Among.ofRelease h gathers_written hfirst

theorem Offers.head [Git.Merger] (h : Offers objects (Replay.actAll settings (a :: as)) r) :
    Offers objects (Replay.act settings a) r :=
  Among.head h gathers_written

theorem Offers.tail [Git.Merger] (h : Offers objects (Replay.actAll settings (a :: as)) r)
    (hact : on (Replay.act settings a) r = (.ok settings', r₁)) :
    Offers objects (Replay.actAll settings' as) r₁ :=
  Among.tail h gathers_written hact

/-- The first of some commits is offered after its change is added, and the others after it. -/
theorem Offers.commits_cons [Git.Merger] (h : Offers objects (Replay.commits (c :: cs)) r)
    (hadd : on (Replay.addChange c.message) r = (.ok (), r₁)) :
    (∀ e ∈ r₁.offered? (.commit c.message c.datetime), e ∈ objects) ∧ ∀ id r₂,
      on (WorkTree.commit c.message c.datetime) r₁ = (.ok id, r₂) →
        Offers objects (Replay.commits cs) r₂ := by
  obtain ⟨hfirst, hlater⟩ := Among.commits_cons h gathers_written hadd
  exact ⟨written_singleton.1 hfirst, hlater⟩

theorem Offers.publish [Git.Merger] (h : Offers objects (Replay.publish settings version time) r)
    (hwrite : on (WorkTree.writeText Replay.versionFile (version ++ "\n")) r = (.ok (), r₁)) :
    ∀ e ∈ r₁.offered? (.commit (Replay.releaseMessage version) time), e ∈ objects :=
  written_singleton.1 (Among.publish h gathers_written hwrite)

end Parts

/-! ### Files -/

theorem keepsOut_of_plain (hmount : start.files.mount.startsWith "/" = true) {name : String}
    (hname : Plain name) (hstore : name ≠ FileTree.storeName) : start.KeepsOut name := by
  intro l hl hbelow
  rw [FileTree.destination?, hname.origin?_eq hmount] at hl
  obtain rfl : start.root ++ [name] = l := by
    rw [← hname.go_eq]
    exact Option.some_inj.1 hl
  rw [storeLocation, List.prefix_append_right_inj, List.cons_prefix_cons] at hbelow
  exact hstore hbelow.1.symm

/-- The store is not reached by the files that a replay writes of its own. -/
theorem keepsOut_files (hmount : start.files.mount.startsWith "/" = true) :
    ∀ name ∈ [Replay.documentFile, Replay.ignoreFile, Replay.changesFile, Replay.versionFile],
      start.KeepsOut name := by
  have hplain : ∀ name ∈ [Replay.documentFile, Replay.ignoreFile, Replay.changesFile,
      Replay.versionFile], Plain name ∧ name ≠ FileTree.storeName := by decide
  intro name hname
  exact keepsOut_of_plain hmount (hplain name hname).1 (hplain name hname).2

theorem eq_of_readText [Git.Merger] {path : String} {found : Option String}
    (h : on (WorkTree.readText path) r = (.ok found, r')) : r' = r := by
  rw [← on_readText r path, h]

theorem Intact.addChange [Git.Merger] (hi : Intact start objects s r)
    (hpath : start.KeepsOut Replay.changesFile)
    (h : on (Replay.addChange message) r = (.ok (), r')) : Intact start objects s r' := by
  rw [Replay.addChange, bind_eq_ok] at h
  obtain ⟨found, r₁, hread, hwrite⟩ := h
  obtain rfl := eq_of_readText hread
  exact hi.writeText hpath hwrite

theorem Intact.changelogs [Git.Merger] {version : String} {fs : List ChangelogFile}
    (hi : Intact start objects s r) (hpaths : ∀ f ∈ fs, start.KeepsOut f.path)
    (h : on (Replay.changelogs settings version fs) r = (.ok (), r')) :
    Intact start objects s r' := by
  induction fs generalizing r with
  | nil =>
    cases h
    exact hi
  | cons f fs ih =>
    obtain ⟨hfirst, hrest⟩ := List.forall_mem_cons.1 hpaths
    rw [Replay.changelogs, bind_eq_ok] at h
    obtain ⟨found, r₁, hread, h⟩ := h
    obtain rfl := eq_of_readText hread
    rw [bind_eq_ok] at h
    obtain ⟨_, r₂, hwrite, h⟩ := h
    exact ih (hi.writeText hfirst hwrite) hrest h

theorem Intact.configure [Git.Merger] {c : Configuration} (hi : Intact start objects s r)
    (hdocument : start.KeepsOut Replay.documentFile) (hignore : start.KeepsOut Replay.ignoreFile)
    (h : on (Replay.configure c) r = (.ok settings, r')) :
    Intact start objects s r' ∧ TagFormat.ofOption c.tagPattern = .ok settings.tagFormat := by
  have hlift : ∀ {α : Type} {result : Except Fault α} {a : α} {r₁ r₂ : Repository},
      on (Replay.configure.liftExcept result) r₁ = (.ok a, r₂) → result = .ok a ∧ r₂ = r₁ := by
    intro α result a r₁ r₂ hon
    cases hon
    exact ⟨rfl, rfl⟩
  rw [Replay.configure, bind_eq_ok] at h
  obtain ⟨f, r₁, hf, h⟩ := h
  obtain ⟨hformat, rfl⟩ := hlift hf
  rw [bind_eq_ok] at h
  obtain ⟨text, r₂, htext, h⟩ := h
  obtain ⟨_, rfl⟩ := hlift htext
  rw [bind_eq_ok] at h
  obtain ⟨_, r₃, hwrite, h⟩ := h
  rw [bind_eq_ok] at h
  obtain ⟨_, r₄, hlast, h⟩ := h
  cases h
  exact ⟨(hi.writeText hdocument hwrite).writeText hignore hlast, hformat⟩

/-! ### Branches and commits -/

theorem Intact.checkoutTo [Git.Merger] {c : Checkout} (hi : Intact start objects s r)
    (h : on (Replay.checkout c) r = (.ok (), r')) :
    ∃ t, Intact start objects t r' ∧ Proceeds s t ∧
      ∃ full, RefName.branch? c.target = some full ∧ t.head = .branch full := by
  cases c with
  | existing branch =>
    have hcheckout : on (Repository.checkout branch) r = (.ok (), r') := h
    obtain ⟨t, ht, hst, hhead⟩ := hi.checkout hcheckout
    exact ⟨t, ht, hst, hhead rfl⟩
  | create name base =>
    have hcreate : on (Repository.createBranch name base) r = (.ok (), r') := h
    obtain ⟨t, ht, hst, hhead⟩ := hi.createBranch hcreate
    exact ⟨t, ht, hst, hhead rfl⟩

theorem Intact.merge [Git.Merger] [Git.LawfulMerger] {m : Merge} (hi : Intact start objects s r)
    (hdistinct : Distinct objects) (hhead : s.head = .branch full)
    (hoffers : Offers objects (Replay.merge m) r) (h : on (Replay.merge m) r = (.ok (), r')) :
    ∃ t, Intact start objects t r' ∧ Proceeds s t ∧ t.head = s.head := by
  obtain ⟨branch, fastForward, commit⟩ := m
  cases fastForward with
  | true =>
    have hforward : on (Repository.merge branch .fastForward) r = (.ok (), r') := h
    exact hi.fastForward hforward
  | false =>
    cases commit with
    | none => cases h
    | some c =>
      have hmerge : on (Repository.merge branch (.withCommit c)) r = (.ok (), r') := h
      have hrecord : Offers objects (record (.merge branch (.withCommit c))
        (Repository.merge branch (.withCommit c))) r := hoffers
      obtain ⟨t, ht, hst, hsame⟩ := hi.mergeWithCommit hdistinct (offers_record.1 hrecord) hmerge
      exact ⟨t, ht, hst, hsame full hhead⟩

theorem Intact.commits [Git.Merger] {cs : List Commit} (hi : Intact start objects s r)
    (hdistinct : Distinct objects) (hpath : start.KeepsOut Replay.changesFile)
    (hhead : s.head = .branch full) (hoffers : Offers objects (Replay.commits cs) r)
    (h : on (Replay.commits cs) r = (.ok (), r')) :
    ∃ t, Intact start objects t r' ∧ Proceeds s t ∧ t.head = s.head := by
  induction cs generalizing r s with
  | nil =>
    cases h
    exact ⟨s, hi, .refl, rfl⟩
  | cons c cs ih =>
    rw [Replay.commits, bind_eq_ok] at h
    obtain ⟨_, r₁, hadd, h⟩ := h
    rw [bind_eq_ok] at h
    obtain ⟨id, r₂, hcommit, h⟩ := h
    obtain ⟨hoffered, hlater⟩ := hoffers.commits_cons hadd
    have hoffers₂ := hlater id r₂ hcommit
    obtain ⟨t, ht, hst, hsame⟩ := (hi.addChange hpath hadd).commit hdistinct hoffered hcommit
    have hkept := (hsame full hhead).1
    obtain ⟨u, hu, htu, hlast⟩ := ih ht (hkept.trans hhead) hoffers₂ h
    exact ⟨u, hu, hst.trans htu, hlast.trans hkept⟩

/-! ### Releases -/

/-- What a release that was published leaves: its commit at the tip of the branch that is checked
out, with what was staged once the version was written, and a new tag on it. -/
theorem Intact.publish [Git.Merger] {version time : String} (hi : Intact start objects s r)
    (hdistinct : Distinct objects) (hpath : start.KeepsOut Replay.versionFile)
    (hhead : s.head = .branch full) (hoffers : Offers objects (Replay.publish settings version time) r)
    (h : on (Replay.publish settings version time) r = (.ok (), r')) :
    ∃ t n c signature key, Intact start objects t r' ∧ s.Keeps t ∧ t.head = s.head ∧
      t.branches.lookup full = some n ∧ t.history.get? n = some c ∧
      c.message = Replay.releaseMessage version ∧
      signatureAt start.identity time = .ok signature ∧ c.signature.text = signature.text ∧
      RefName.tag? (settings.tagFormat.name version) = some key ∧ s.tags.lookup key = none ∧
      t.tags = (key, ⟨settings.tagFormat.name version, n, signature,
        settings.tagFormat.name version⟩) :: s.tags ∧
      ∃ r₁ tree, on (WorkTree.writeText Replay.versionFile (version ++ "\n")) r = (.ok (), r₁) ∧
        r₁.stagedFiles s = some tree ∧ c.snapshot.id = tree.id := by
  rw [Replay.publish, bind_eq_ok] at h
  obtain ⟨_, r₁, hwrite, h⟩ := h
  rw [bind_eq_ok] at h
  obtain ⟨id, r₂, hcommit, htag⟩ := h
  have hoffered := hoffers.publish hwrite
  obtain ⟨u, hu, hsu, hcommitted⟩ := (hi.writeText hpath hwrite).commit hdistinct hoffered hcommit
  obtain ⟨hsame, hnew⟩ := hcommitted full hhead
  obtain ⟨tree, htree, n, c, signature, htip, hget, hmessage, hnamed, hsignature, hstored⟩ :=
    hnew id rfl
  have hmade : on (Repository.tag (settings.tagFormat.name version)
    (settings.tagFormat.name version) time) r₂ = (.ok (), r') := htag
  obtain ⟨t, ht, hut, hkept, hbranches, hhistory, htagged⟩ := hu.tag hmade
  obtain ⟨key, m, stamp, hm, hkey, hstamp, hfree, htags⟩ := htagged rfl
  have htarget := Store.headCommit_of_branch (hsame.trans hhead) htip
  rw [hm] at htarget
  cases htarget
  rw [hsignature] at hstamp
  cases hstamp
  rw [hsu.tags] at hfree htags
  rw [← hbranches] at htip
  rw [← hhistory] at hget
  exact ⟨t, n, c, signature, key, ht, hsu.keeps.trans hut, hkept.trans hsame, htip, hget, hmessage,
    hsignature, hstored, hkey, hfree, htags, r₁, tree, hwrite, htree, hnamed⟩

end ReleaseHistory.Repository
