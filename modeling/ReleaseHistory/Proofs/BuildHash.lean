import ReleaseHistory.BuildHash
import ReleaseHistory.Proofs.Git.Object
import ReleaseHistory.Proofs.Operation

/-!
# What a build hash is made of

A zero byte ends each name and each text, so the bytes that are digested can be cut into names and
texts again as long as no zero byte stands in one of them. Named texts with the same hash are then
the same, or a collision of the digest. Files that are read one after the other are digested as
texts with their paths as names.
-/

namespace ReleaseHistory.BuildHash

open Operation

/-- No zero byte stands in a name or in a text. -/
def ZeroFree (sources : List (String × String)) : Prop :=
  ∀ s ∈ sources, 0 ∉ bytes s.1 ∧ 0 ∉ bytes s.2

/-! ### Named texts -/

theorem input_cons (name text : String) (sources : List (String × String)) :
    input ((name, text) :: sources) =
      bytes name ++ 0 :: (bytes text ++ 0 :: input sources) := by
  simp [input, frame]

theorem input_cons_ne_nil (s : String × String) (sources : List (String × String)) :
    input (s :: sources) ≠ [] := by
  rw [input_cons s.1 s.2]
  simp

theorem eq_of_input_eq {a b : List (String × String)} (ha : ZeroFree a) (hb : ZeroFree b)
    (h : input a = input b) : a = b := by
  induction a generalizing b with
  | nil =>
    cases b with
    | nil => rfl
    | cons s b => exact absurd h.symm (input_cons_ne_nil s b)
  | cons s a ih =>
    cases b with
    | nil => exact absurd h (input_cons_ne_nil s a)
    | cons s' b =>
      obtain ⟨⟨hname, htext⟩, ha⟩ := List.forall_mem_cons.1 ha
      obtain ⟨⟨hname', htext'⟩, hb⟩ := List.forall_mem_cons.1 hb
      rw [input_cons, input_cons] at h
      obtain ⟨hnames, h⟩ := Text.eq_of_append_separator hname hname' h
      obtain ⟨htexts, h⟩ := Text.eq_of_append_separator htext htext' h
      rw [ih ha hb h, Prod.ext (Git.eq_of_toUTF8_toList hnames) (Git.eq_of_toUTF8_toList htexts)]

theorem digest_eq_of_ofSources_eq {a b : List (String × String)} (h : ofSources a = ofSources b) :
    Digest.Blake3.digest (input a) = Digest.Blake3.digest (input b) :=
  Git.hexId_inj h

/-! ### Files -/

theorem on_feedFile {t : FileTree} {base : Location} {path text : String}
    (h : on (FileTree.readText base path) t = (.ok text, t)) (fed : List UInt8) :
    on (feedFile base fed path) t = (.ok (fed ++ frame (bytes path) (bytes text)), t) := by
  rw [feedFile, on_bind_of_ok h, on_pure]

/-- After some files the bytes of their paths and texts have been added, in their order. -/
theorem on_foldlM_feedFile {t : FileTree} {base : Location} {files : List (String × String)}
    (h : ∀ f ∈ files, on (FileTree.readText base f.1) t = (.ok f.2, t)) (fed : List UInt8) :
    on ((files.map Prod.fst).foldlM (feedFile base) fed) t = (.ok (fed ++ input files), t) := by
  induction files generalizing fed with
  | nil => simp [input]
  | cons f files ih =>
    obtain ⟨hf, hfiles⟩ := List.forall_mem_cons.1 h
    rw [List.map_cons, List.foldlM_cons, on_bind_of_ok (on_feedFile hf fed), ih hfiles]
    simp [input]

/-- Named texts without zero bytes are determined by what is digested, and by their hash up to
collisions of the digest. Files have the hash of their paths and texts. -/
theorem sources_determined :
    (∀ a b, ZeroFree a → ZeroFree b → (input a = input b → a = b) ∧
      (ofSources a = ofSources b → a = b ∨
        input a ≠ input b ∧ Digest.Blake3.digest (input a) = Digest.Blake3.digest (input b))) ∧
    ∀ (t : FileTree) (base : Location) (files : List (String × String)),
      (∀ f ∈ files, on (FileTree.readText base f.1) t = (.ok f.2, t)) →
        on (ofFiles base (files.map Prod.fst)) t = (.ok (ofSources files), t) := by
  refine ⟨fun a b ha hb => ⟨eq_of_input_eq ha hb, fun h => ?_⟩, fun t base files h => ?_⟩
  · by_cases hinput : input a = input b
    · exact .inl (eq_of_input_eq ha hb hinput)
    · exact .inr ⟨hinput, digest_eq_of_ofSources_eq h⟩
  · rw [ofFiles, on_bind_of_ok (on_foldlM_feedFile h []), on_pure, List.nil_append]
    rfl

/-- A file and a directory with an empty file in it. -/
def twoFiles : FileTree :=
  ⟨"/work", [(["a"], .text "bc"), (["d"], .directory), (["d", "e"], .text "")]⟩

/-- A text that flows into the name before it makes other bytes. -/
theorem sources_determined_shifted :
    ZeroFree [("a", "bc"), ("d/e", "")] ∧ ZeroFree [("ab", "c"), ("d/e", "")] ∧
      input [("a", "bc"), ("d/e", "")] ≠ input [("ab", "c"), ("d/e", "")] ∧
      on (FileTree.readText [] "a") twoFiles = (.ok "bc", twoFiles) ∧
      on (FileTree.readText [] "d/e") twoFiles = (.ok "", twoFiles) ∧
      on (ofFiles [] ["a", "d/e"]) twoFiles =
        (.ok (ofSources [("a", "bc"), ("d/e", "")]), twoFiles) := by
  have hfirst : ZeroFree [("a", "bc"), ("d/e", "")] := by
    simp only [ZeroFree, List.forall_mem_cons, bytes, Git.toList_eq_data]
    decide
  have hsecond : ZeroFree [("ab", "c"), ("d/e", "")] := by
    simp only [ZeroFree, List.forall_mem_cons, bytes, Git.toList_eq_data]
    decide
  have ha : on (FileTree.readText [] "a") twoFiles = (.ok "bc", twoFiles) := by
    cbv
  have he : on (FileTree.readText [] "d/e") twoFiles = (.ok "", twoFiles) := by
    cbv
  refine ⟨hfirst, hsecond, fun h => ?_, ha, he, ?_⟩
  · exact absurd ((sources_determined.1 _ _ hfirst hsecond).1 h) (by decide)
  · apply sources_determined.2 twoFiles [] [("a", "bc"), ("d/e", "")]
    simp [ha, he]

end ReleaseHistory.BuildHash
