import ReleaseHistory.Proofs.FileTree.Write
import ReleaseHistory.Proofs.WorkTree.Repository

/-!
# Which files a commit holds

A commit holds a file that lies below the root with its text if staging comes to it, and else not at
all: what staging comes to is decided part by part, from the rules of the directories on the way, the
index and the names.
-/

namespace ReleaseHistory

namespace FileTree

variable {t : FileTree} {base l : Location} {n text : String} {e : Entry} {rest : Location}

theorem mem_names_of_mem (h : (l ++ [n], e) ∈ t.entries) : n ∈ t.names l := by
  rw [names, List.mem_mergeSort]
  refine List.mem_filterMap.2 ⟨([n], e), List.mem_filterMap.2 ⟨(l ++ [n], e), h, ?_⟩, rfl⟩
  have hbelow : below? l (l ++ [n]) = some [n] := below?_eq_some.2 rfl
  simp only [hbelow]

theorem Lies.step (h : Lies t base (n :: rest) text) (hrest : rest ≠ []) :
    (∃ e, (base ++ [n], e) ∈ t.entries) ∧ t.isDirectory (base ++ [n]) = true ∧
      Lies t (base ++ [n]) rest text := by
  have hfirst : t.isDirectory (base ++ [n]) = true :=
    h.inside [n] ⟨rest, rfl⟩ (List.cons_ne_nil n []) fun heq => hrest (List.cons.inj heq).2.symm
  refine ⟨?_, hfirst, ?_, ?_⟩
  · obtain ⟨e, he, -⟩ := (isDirectory_iff.1 hfirst).resolve_left (by simp)
    exact ⟨e, mem_entries_of_own? he⟩
  · rw [List.append_assoc]
    exact h.own
  · intro k hk hnil hway
    rw [List.append_assoc]
    exact h.inside (n :: k) (List.cons_prefix_cons.2 ⟨rfl, hk⟩) (List.cons_ne_nil n k)
      fun heq => hway (List.cons.inj heq).2

end FileTree

namespace Repository

open FileTree (Lies Named Slashless)

variable {t : FileTree} {root way rest : Location} {index files : Git.Snapshot} {text : String}
  {depth : Nat} {rules : List (List Git.IgnoreRule)} {ignored : Bool}

/-! ### What staging comes to -/

theorem exists_of_mapM {α β : Type} {f : α → Option β} {as : List α} {bs : List β} {a : α}
    (h : as.mapM f = some bs) (ha : a ∈ as) : ∃ b ∈ bs, f a = some b := by
  induction as generalizing bs with
  | nil => cases ha
  | cons first as ih =>
    rw [List.mapM_cons] at h
    obtain ⟨b, hb, h⟩ := Option.bind_eq_some_iff.1 h
    obtain ⟨rest, hrest, h⟩ := Option.bind_eq_some_iff.1 h
    cases h
    rcases List.mem_cons.1 ha with rfl | ha
    · exact ⟨b, List.mem_cons_self .., hb⟩
    · obtain ⟨b', hb', hfound⟩ := ih hrest ha
      exact ⟨b', List.mem_cons_of_mem b hb', hfound⟩

/-- What lies below a directory and is come to is staged, if staging goes deep enough. -/
theorem mem_staged (h : staged t root index depth rules ignored way = some files)
    (hlies : Lies t (root ++ way) rest text) (hdepth : rest.length ≤ depth)
    (hreached : reaches t root index rules ignored way rest = true) :
    (pathOf (way ++ rest), text) ∈ files := by
  induction depth generalizing rules ignored way rest files with
  | zero =>
    obtain rfl := List.eq_nil_of_length_eq_zero (Nat.le_zero.1 hdepth)
    cases hreached
  | succ depth ih =>
    rw [staged_succ] at h
    obtain ⟨parts, hparts, rfl⟩ := Option.map_eq_some_iff.1 h
    have hname : ∀ {n e}, (root ++ way ++ [n], e) ∈ t.entries → (!isStoreName n) = true →
        ∃ part ∈ parts, stagedName t root index depth (rulesAt t root rules way) ignored way n =
          some part := by
      intro n e he hstore
      exact exists_of_mapM hparts (List.mem_filter.2 ⟨FileTree.mem_names_of_mem he, hstore⟩)
    match rest with
    | [] => cases hreached
    | [n] =>
      obtain ⟨hstore, hcounts⟩ := Bool.and_eq_true_iff.1 hreached
      obtain ⟨part, hpart, hone⟩ := hname (FileTree.mem_entries_of_own? hlies.own) hstore
      have hget : t.get? (root ++ (way ++ [n])) = some (.text text) := by
        rw [← List.append_assoc]
        exact FileTree.get?_of_own? (by simp) hlies.own
      rw [stagedName_of_text hget, if_pos hcounts] at hone
      cases hone
      exact List.mem_flatten.2 ⟨_, hpart, List.mem_singleton_self _⟩
    | n :: next :: rest =>
      obtain ⟨hstore, hinto⟩ := Bool.and_eq_true_iff.1 hreached
      obtain ⟨hinto, hreached⟩ := Bool.and_eq_true_iff.1 hinto
      obtain ⟨⟨e, he⟩, hdirectory, hlater⟩ := hlies.step (List.cons_ne_nil next rest)
      obtain ⟨part, hpart, hone⟩ := hname he hstore
      rw [List.append_assoc] at hdirectory hlater
      have hnot : ∀ old, t.get? (root ++ (way ++ [n])) ≠ some (.text old) := by
        intro old hold
        rw [FileTree.isDirectory, hold] at hdirectory
        cases hdirectory
      rw [stagedName_of_not_text hnot, if_pos hinto] at hone
      split_ifs at hone
      have hmem := ih hone hlater (Nat.le_of_succ_le_succ hdepth) hreached
      rw [List.append_assoc, List.singleton_append] at hmem
      exact List.mem_flatten.2 ⟨part, hpart, hmem⟩

/-! ### The paths of a snapshot -/

theorem pathOf_inj {way' : Location} (hne : way ≠ []) (hne' : way' ≠ []) (hway : Named way)
    (hway' : Named way') (h : pathOf way = pathOf way') : way = way' := by
  rw [← splitOn_pathOf hne hway, h, splitOn_pathOf hne' hway']

theorem le_foldl_max {ns : List Nat} {n start : Nat} (h : n ≤ start ∨ n ∈ ns) :
    n ≤ ns.foldl max start := by
  induction ns generalizing start with
  | nil => exact h.resolve_right List.not_mem_nil
  | cons m ns ih =>
    apply ih
    rcases h with hstart | hmem
    · exact .inl (hstart.trans (Nat.le_max_left ..))
    · rcases List.mem_cons.1 hmem with rfl | hmem
      · exact .inl (Nat.le_max_right ..)
      · exact .inr hmem

/-- Whether a commit that is made now holds a file below the root. -/
def includes (r : Repository) (s : Git.Store) (way : Location) : Bool :=
  reaches r.files r.root s.index [ownRules r.files r.root] false [] way

theorem includes_of_stagedFiles {r : Repository} {s : Git.Store} (hnames : r.files.Slashless)
    (h : r.stagedFiles s = some index) (hne : way ≠ []) (hway : Named way)
    (hfound : index.get? (pathOf way) = some text) :
    r.includes s way = true ∧ r.files.get? (r.root ++ way) = some (.text text) := by
  obtain ⟨files, hfiles, rfl⟩ := Option.map_eq_some_iff.1 h
  obtain ⟨rest, hleads, hreached, htext⟩ :=
    reaches_of_staged hnames hfiles (Git.Snapshot.mem_ofList (Git.Snapshot.mem_of_get? hfound))
  obtain rfl : way = rest := pathOf_inj hne hleads.ne_nil hway hleads.named hleads.path_eq
  exact ⟨hreached, htext⟩

/-- What staging does not come to is left out, whether it is there or not. -/
theorem get?_stagedFiles_eq_none {r : Repository} {s : Git.Store} (hnames : r.files.Slashless)
    (h : r.stagedFiles s = some index) (hne : way ≠ []) (hway : Named way)
    (hleft : r.includes s way = false) : index.get? (pathOf way) = none := by
  rw [Option.eq_none_iff_forall_ne_some]
  intro found hfound
  have hincluded := (includes_of_stagedFiles hnames h hne hway hfound).1
  rw [hleft] at hincluded
  cases hincluded

theorem get?_stagedFiles_name {r : Repository} {s : Git.Store} {name : String}
    (hnames : r.files.Slashless) (h : r.stagedFiles s = some index) (hname : FileTree.Plain name)
    (hleft : r.includes s [name] = false) : index.get? name = none := by
  have hnamed : Named [name] := fun part hpart => by
    rw [List.mem_singleton.1 hpart]
    exact hname.no_slash
  exact get?_stagedFiles_eq_none hnames h (List.cons_ne_nil name []) hnamed hleft

/-- A file is held by a commit with its text if staging comes to it, and else not at all. -/
theorem get?_stagedFiles {r : Repository} {s : Git.Store} (hnames : r.files.Slashless)
    (h : r.stagedFiles s = some index) (hne : way ≠ []) (hlies : Lies r.files r.root way text) :
    index.get? (pathOf way) = if r.includes s way then some text else none := by
  have hway : Named way := (FileTree.named_append.1 (hnames.named hlies.own)).2
  split_ifs with hincluded
  · obtain ⟨files, hfiles, hindex⟩ := Option.map_eq_some_iff.1 h
    have hlength : way.length ≤ (r.files.entries.map (·.1.length)).foldl max 0 + 1 := by
      have hentry : (r.root ++ way).length ≤ (r.files.entries.map (·.1.length)).foldl max 0 :=
        le_foldl_max (.inr (List.mem_map_of_mem (FileTree.mem_entries_of_own? hlies.own)))
      rw [List.length_append] at hentry
      omega
    have hmem : (pathOf ([] ++ way), text) ∈ files :=
      mem_staged hfiles (by rwa [List.append_nil]) hlength hincluded
    have hkey : pathOf way ∈ files.map (·.1) := List.mem_map_of_mem hmem
    obtain ⟨found, hfound⟩ :=
      Option.isSome_iff_exists.1 (Git.Snapshot.get?_foldl_insert_isSome (s := []) (.inl hkey))
    have hstaged : index.get? (pathOf way) = some found := by
      rw [← hindex]
      exact hfound
    have hget := (includes_of_stagedFiles hnames h hne hway hstaged).2
    rw [FileTree.get?_of_own? (by simp [hne]) hlies.own] at hget
    cases hget
    exact hstaged
  · exact get?_stagedFiles_eq_none hnames h hne hway (by simpa using hincluded)

theorem includes_name {r : Repository} {s : Git.Store} {rules : List Git.IgnoreRule}
    (hrules : rulesAt r.files r.root [ownRules r.files r.root] [] = [rules, []]) (name : String) :
    r.includes s [name] = (!isStoreName name && ((s.index.get? name).isSome ||
      !(Git.IgnoreRule.verdict [rules, []] name false).getD false)) := by
  have hpath : pathOf ([] ++ [name]) = name := rfl
  rw [includes, reaches, ignoredAt, hrules, hpath]

end Repository

end ReleaseHistory
