import Mathlib.Data.List.Nodup
import ReleaseHistory.Proofs.Definition.Progress
import ReleaseHistory.TagFormat

/-!
# What a definition says of its releases

The settings of a definition decide how the tags of its releases are named. The changelogs that it
writes are those of its own and those that come before its releases.
-/

namespace ReleaseHistory.Definition

/-- The format of the names of tags that is in force after a definition. -/
def tagFormat (d : Definition) : TagFormat :=
  match d.configurations.head? with
  | some c => (TagFormat.ofOption c.tagPattern).toOption.getD .default
  | none => .default

mutual

/-- The changelogs that an action writes, also before a release. -/
def actionChangelogs : Action → List ChangelogFile
  | .changelogs u => u.files
  | .release _ _ first => changelogFiles first
  | _ => []

def changelogFiles : List Action → List ChangelogFile
  | [] => []
  | a :: as => actionChangelogs a ++ changelogFiles as

end

variable {d before after : Definition} {a b : Action}

theorem tagFormat_concat (ha : configurations [a] = []) : tagFormat (d ++ [a]) = d.tagFormat := by
  rw [tagFormat, configurations_concat, ha, List.append_nil, tagFormat]

theorem tagFormat_configure {c : Configuration} {f : TagFormat} (hd : d.configurations = [])
    (hf : TagFormat.ofOption c.tagPattern = .ok f) : tagFormat (d ++ [.configure c]) = f := by
  rw [tagFormat, configurations_concat, hd]
  show (TagFormat.ofOption c.tagPattern).toOption.getD .default = f
  rw [hf]
  rfl

theorem changelogFiles_append :
    changelogFiles (before ++ after) = changelogFiles before ++ changelogFiles after := by
  induction before with
  | nil => rfl
  | cons b before ih =>
    rw [List.cons_append, changelogFiles, ih, changelogFiles, List.append_assoc]

theorem changelogFiles_concat : changelogFiles (d ++ [a]) = changelogFiles d ++ actionChangelogs a := by
  rw [changelogFiles_append, changelogFiles, changelogFiles, List.append_nil]

theorem eq_of_concat (h : d ++ [a] = before ++ b :: after) :
    (before = d ∧ b = a) ∨ ∃ rest, d = before ++ b :: rest := by
  rcases List.eq_nil_or_concat after with rfl | ⟨rest, c, rfl⟩
  · obtain ⟨hbefore, hlast⟩ := List.append_inj' h rfl
    exact .inl ⟨hbefore.symm, (List.cons.inj hlast).1.symm⟩
  · rw [List.concat_eq_append, ← List.cons_append, ← List.append_assoc] at h
    exact .inr ⟨rest, (List.append_inj' h rfl).1⟩

variable [Pattern.Engine]

theorem Fits.quiet_of_configure {c : Configuration} (h : d.Fits (.configure c)) :
    d.configurations = [] ∧ d.versions = [] := by
  have hquiet := h.configuredFirst c rfl
  constructor
  · rw [List.eq_nil_iff_forall_not_mem]
    intro c' hc'
    obtain ⟨u, hu⟩ := hquiet _ (mem_configurations.1 hc')
    cases hu
  · rw [List.eq_nil_iff_forall_not_mem]
    intro version hversion
    obtain ⟨b, hb, hversion⟩ := List.mem_filterMap.1 hversion
    obtain ⟨u, rfl⟩ := hquiet b hb
    cases hversion

theorem Valid.tagFormat_eq {version time : String} {first : List Action}
    (h : Valid (before ++ .release version time first :: after)) :
    tagFormat (before ++ .release version time first :: after) = before.tagFormat := by
  induction after using List.reverseRecOn with
  | nil => exact tagFormat_concat rfl
  | append_singleton after a ih =>
    rw [← List.cons_append, ← List.append_assoc] at h ⊢
    obtain ⟨hd, ha⟩ := valid_concat.1 h
    have hquiet : configurations [a] = [] := by
      cases a with
      | configure c =>
        have hnone := ha.quiet_of_configure.2
        simp [versions] at hnone
      | _ => rfl
    rw [tagFormat_concat hquiet, ih hd]

theorem Valid.nodup_versions (h : d.Valid) : d.versions.Nodup := by
  induction d using List.reverseRecOn with
  | nil => exact List.nodup_nil
  | append_singleton d a ih =>
    obtain ⟨hd, ha⟩ := valid_concat.1 h
    rw [versions_concat]
    cases a with
    | release version time first =>
      have hone : versions [.release version time first] = [version] := rfl
      rw [hone, ← List.concat_eq_append]
      exact List.Nodup.concat ha.version_not_mem (ih hd)
    | _ => simpa [versions] using ih hd

end ReleaseHistory.Definition
