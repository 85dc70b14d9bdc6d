import ReleaseHistory.Proofs.Text.Split
import ReleaseHistory.Proofs.WorkTree.Files

/-!
# What a commit stages

The paths of staged files are those of texts below the root that staging comes to, and none of them
leads into the store. Where there are no directories but the store, nothing stands in the way of
staging.
-/

namespace ReleaseHistory.Repository

open FileTree (Named Slashless)

variable {t : FileTree} {root way : Location} {index files : Git.Snapshot} {entry : String × String}
  {depth : Nat} {rules : List (List Git.IgnoreRule)} {ignored : Bool}

/-! ### Names below a location -/

theorem mem_of_mapM {α β : Type} {f : α → Option β} {as : List α} {bs : List β} {b : β}
    (h : as.mapM f = some bs) (hb : b ∈ bs) : ∃ a ∈ as, f a = some b := by
  induction as generalizing bs with
  | nil =>
    cases h
    cases hb
  | cons a as ih =>
    rw [List.mapM_cons] at h
    obtain ⟨first, hfirst, h⟩ := Option.bind_eq_some_iff.1 h
    obtain ⟨rest, hrest, h⟩ := Option.bind_eq_some_iff.1 h
    cases h
    rcases List.mem_cons.1 hb with rfl | hb
    · exact ⟨a, List.mem_cons_self .., hfirst⟩
    · obtain ⟨a', ha', hb'⟩ := ih hrest hb
      exact ⟨a', List.mem_cons_of_mem a ha', hb'⟩

theorem mem_names {n : String} {l : Location} (h : n ∈ t.names l) :
    ∃ e, (l ++ [n], e) ∈ t.entries := by
  rw [FileTree.names, List.mem_mergeSort] at h
  obtain ⟨⟨w, e⟩, hbelow, hlength⟩ := List.mem_filterMap.1 h
  dsimp only at hlength
  split at hlength
  · rename_i hone
    obtain ⟨part, rfl⟩ := List.length_eq_one_iff.1 hone
    cases hlength
    obtain ⟨⟨k, e'⟩, hmem, hk⟩ := List.mem_filterMap.1 hbelow
    dsimp only at hk
    split at hk
    · cases hk
    · rename_i w hw
      cases hk
      obtain rfl := FileTree.below?_eq_some.1 hw
      exact ⟨e, hmem⟩
    · cases hk
  · cases hlength

theorem named_of_names {n : String} {l : Location} (ht : t.Slashless) (h : n ∈ t.names l) :
    Named [n] := by
  obtain ⟨e, he⟩ := mem_names h
  exact (FileTree.named_append.1 (ht _ he)).2

/-! ### Staged paths -/

/-- A way below a directory: names without slashes, none of which is that of a store. -/
structure Leads (way rest : Location) (path : String) : Prop where
  path_eq : path = pathOf (way ++ rest)
  ne_nil : rest ≠ []
  named : Named rest
  outside : ∀ n ∈ rest, isStoreName n = false

theorem Leads.cons {n path : String} {rest : Location} (hn : Named [n])
    (hstore : isStoreName n = false) (h : Leads (way ++ [n]) rest path) :
    Leads way (n :: rest) path where
  path_eq := by rw [h.path_eq, List.append_assoc, List.singleton_append]
  ne_nil := List.cons_ne_nil n rest
  named := FileTree.named_append.2 ⟨hn, h.named⟩
  outside := by
    intro m hm
    rcases List.mem_cons.1 hm with rfl | hm
    · exact hstore
    · exact h.outside m hm

def rulesAt (t : FileTree) (root : Location) (rules : List (List Git.IgnoreRule)) (way : Location) :
    List (List Git.IgnoreRule) :=
  match t.get? (root ++ way ++ [".gitignore"]) with
  | some (.text s) =>
    Git.IgnoreRule.ofText (if way.isEmpty then "" else pathOf way ++ "/") s :: rules
  | _ => rules

def stagedName (t : FileTree) (root : Location) (index : Git.Snapshot) (depth : Nat)
    (rules : List (List Git.IgnoreRule)) (ignored : Bool) (way : Location) (n : String) :
    Option Git.Snapshot :=
  let path := pathOf (way ++ [n])
  let verdict := fun isDirectory => (Git.IgnoreRule.verdict rules path isDirectory).getD ignored
  match t.get? (root ++ (way ++ [n])) with
  | some (.text s) => some (if (index.get? path).isSome || !verdict false then [(path, s)] else [])
  | _ =>
    if hasStaged index path then staged t root index depth rules (verdict true) (way ++ [n])
    else if verdict true then some []
    else if (t.get? (root ++ (way ++ [n]) ++ [FileTree.storeName])).isSome then none
    else staged t root index depth rules false (way ++ [n])

theorem staged_succ : staged t root index (depth + 1) rules ignored way =
    (((t.names (root ++ way)).filter fun n => !isStoreName n).mapM
      (stagedName t root index depth (rulesAt t root rules way) ignored way)).map List.flatten := by
  rw [staged, Option.map_eq_bind]
  rfl

/-- Whether something in a directory is ignored. What no rule is about is ignored if the directory is
that it is in. -/
def ignoredAt (t : FileTree) (root : Location) (rules : List (List Git.IgnoreRule)) (ignored : Bool)
    (way : Location) (n : String) (isDirectory : Bool) : Bool :=
  (Git.IgnoreRule.verdict (rulesAt t root rules way) (pathOf (way ++ [n])) isDirectory).getD ignored

/-- Whether staging comes to a file at the end of a way below a directory. A file that is staged
already is staged again, and any other one unless it is ignored; a directory is gone into unless it
is ignored and none of its files are staged already. -/
def reaches (t : FileTree) (root : Location) (index : Git.Snapshot) :
    List (List Git.IgnoreRule) → Bool → Location → Location → Bool
  | _, _, _, [] => false
  | rules, ignored, way, [n] =>
    !isStoreName n &&
      ((index.get? (pathOf (way ++ [n]))).isSome || !ignoredAt t root rules ignored way n false)
  | rules, ignored, way, n :: part :: rest =>
    let inner := ignoredAt t root rules ignored way n true
    !isStoreName n && ((hasStaged index (pathOf (way ++ [n])) || !inner) &&
      reaches t root index (rulesAt t root rules way) inner (way ++ [n]) (part :: rest))

theorem stagedName_of_text {n text : String} (h : t.get? (root ++ (way ++ [n])) = some (.text text)) :
    stagedName t root index depth (rulesAt t root rules way) ignored way n =
      some (if (index.get? (pathOf (way ++ [n]))).isSome || !ignoredAt t root rules ignored way n false
        then [(pathOf (way ++ [n]), text)] else []) := by
  unfold stagedName
  rw [h]
  rfl

theorem stagedName_of_not_text {n : String}
    (h : ∀ text, t.get? (root ++ (way ++ [n])) ≠ some (.text text)) :
    stagedName t root index depth (rulesAt t root rules way) ignored way n =
      if hasStaged index (pathOf (way ++ [n])) || !ignoredAt t root rules ignored way n true then
        if !hasStaged index (pathOf (way ++ [n])) &&
            (t.get? (root ++ (way ++ [n]) ++ [FileTree.storeName])).isSome then none
        else staged t root index depth (rulesAt t root rules way)
          (ignoredAt t root rules ignored way n true) (way ++ [n])
      else some [] := by
  unfold stagedName
  dsimp only
  split
  · rename_i text htext
    exact absurd htext (h text)
  · by_cases hhas : hasStaged index (pathOf (way ++ [n])) = true
    · simp [hhas, ignoredAt]
    · have hverdict : (Git.IgnoreRule.verdict (rulesAt t root rules way) (pathOf (way ++ [n]))
          true).getD ignored = ignoredAt t root rules ignored way n true := rfl
      by_cases hignored : ignoredAt t root rules ignored way n true = true <;>
        simp [hhas, hverdict, hignored]

theorem reaches_of_staged (ht : t.Slashless)
    (h : staged t root index depth rules ignored way = some files) (hentry : entry ∈ files) :
    ∃ rest, Leads way rest entry.1 ∧ reaches t root index rules ignored way rest = true ∧
      t.get? (root ++ (way ++ rest)) = some (.text entry.2) := by
  induction depth generalizing rules ignored way files with
  | zero =>
    cases h
    cases hentry
  | succ depth ih =>
    rw [staged_succ] at h
    obtain ⟨parts, hparts, rfl⟩ := Option.map_eq_some_iff.1 h
    obtain ⟨part, hpart, hmem⟩ := List.mem_flatten.1 hentry
    obtain ⟨n, hn, hone⟩ := mem_of_mapM hparts hpart
    obtain ⟨hname, hstore⟩ := List.mem_filter.1 hn
    have hnamed := named_of_names ht hname
    have hstore' : isStoreName n = false := by simpa using hstore
    by_cases htext : ∃ text, t.get? (root ++ (way ++ [n])) = some (.text text)
    · obtain ⟨text, htext⟩ := htext
      rw [stagedName_of_text htext] at hone
      cases hone
      obtain ⟨hcounts, hsame⟩ := List.mem_ite_nil_right.1 hmem
      rw [List.mem_singleton.1 hsame]
      refine ⟨[n], ⟨rfl, List.cons_ne_nil n [], hnamed, ?_⟩, ?_, htext⟩
      · intro m hm
        rwa [List.mem_singleton.1 hm]
      · rw [reaches, hstore, hcounts]
        rfl
    · rw [stagedName_of_not_text (not_exists.1 htext)] at hone
      split_ifs at hone with hinto
      · obtain ⟨rest, hrest, hreached, hget⟩ := ih hone hmem
        rw [List.append_assoc, List.singleton_append] at hget
        refine ⟨n :: rest, hrest.cons hnamed hstore', ?_, hget⟩
        obtain ⟨next, rest, rfl⟩ := List.exists_cons_of_ne_nil hrest.ne_nil
        rw [reaches, hstore, hinto, hreached]
        rfl
      · cases hone
        cases hmem

theorem splitOn_pathOf (hne : way ≠ []) (hway : Named way) : Text.splitOn '/' (pathOf way) = way :=
  Text.splitOn_intercalate hne hway

theorem outside_ofList_staged (ht : t.Slashless)
    (h : staged t root index depth rules ignored [] = some files) :
    Outside (Git.Snapshot.ofList files) := by
  intro entry hentry
  obtain ⟨rest, ⟨hpath, hne, hnamed, houtside⟩, -⟩ :=
    reaches_of_staged ht h (Git.Snapshot.mem_ofList hentry)
  rw [hpath, List.nil_append, splitOn_pathOf hne hnamed]
  intro hmem
  exact absurd (houtside _ hmem) (by decide)

/-! ### Directories of files alone -/

theorem exists_mapM {α β : Type} {f : α → Option β} {as : List α} (h : ∀ a ∈ as, ∃ b, f a = some b) :
    ∃ bs, as.mapM f = some bs := by
  induction as with
  | nil => exact ⟨[], rfl⟩
  | cons a as ih =>
    obtain ⟨b, hb⟩ := h a (List.mem_cons_self ..)
    obtain ⟨bs, hbs⟩ := ih fun a' ha' => h a' (List.mem_cons_of_mem a ha')
    exact ⟨b :: bs, by rw [List.mapM_cons, hb, hbs]; rfl⟩

/-- Where there are no directories but stores, nothing stands in the way of staging, and what is
staged are files of the directory itself. -/
theorem staged_of_files (h : ∀ n ∈ t.names (root ++ way), isStoreName n = false →
      ∃ text, t.get? (root ++ (way ++ [n])) = some (.text text)) :
    ∃ files, staged t root index depth rules ignored way = some files ∧ ∀ entry ∈ files,
      ∃ n ∈ t.names (root ++ way), isStoreName n = false ∧ entry.1 = pathOf (way ++ [n]) := by
  cases depth with
  | zero => exact ⟨[], rfl, fun entry hentry => nomatch hentry⟩
  | succ depth =>
    have hone : ∀ n ∈ (t.names (root ++ way)).filter fun n => !isStoreName n,
        ∃ part, stagedName t root index depth (rulesAt t root rules way) ignored way n = some part ∧
          ∀ entry ∈ part, entry.1 = pathOf (way ++ [n]) := by
      intro n hn
      obtain ⟨hmem, hstore⟩ := List.mem_filter.1 hn
      obtain ⟨text, htext⟩ := h n hmem (by simpa using hstore)
      refine ⟨_, by unfold stagedName; rw [htext], ?_⟩
      intro entry hentry
      rw [List.mem_singleton.1 (List.mem_ite_nil_right.1 hentry).2]
    obtain ⟨parts, hparts⟩ := exists_mapM fun n hn => (hone n hn).imp fun _ hpart => hpart.1
    rw [staged_succ, hparts]
    refine ⟨parts.flatten, rfl, ?_⟩
    intro entry hentry
    obtain ⟨part, hpart, hmem⟩ := List.mem_flatten.1 hentry
    obtain ⟨n, hn, hname⟩ := mem_of_mapM hparts hpart
    obtain ⟨part', hpart', hpath⟩ := hone n hn
    rw [hname] at hpart'
    cases hpart'
    obtain ⟨hnames, hstore⟩ := List.mem_filter.1 hn
    exact ⟨n, hnames, by simpa using hstore, hpath entry hmem⟩

end ReleaseHistory.Repository
