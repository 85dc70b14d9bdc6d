import ReleaseHistory.Action.Wire
import ReleaseHistory.Proofs.Toml.Json

/-!
# Reading definitions as written

Every part of a definition is read from its JSON form with as many levels as the form is deep. So a
definition is read from its text, in the compact and in the indented form, if it is nested no deeper
than the reader goes and its configuration values can be carried by JSON.
-/

namespace ReleaseHistory

open Json (Decoder depth depthItems depthMembers)
open Json.Decode

/-- A reader gives back what a writer was given, with as many levels as the form is deep. -/
def Json.Decode.Inverts {α : Type} (d : Decoder α) (write : α → Json) (a : α) : Prop :=
  ∀ levels, (write a).depth ≤ levels → d levels (write a) = some a

/-! ### Arrays and objects -/

theorem Json.depthItems_cons (j : Json) (js : List Json) :
    depthItems (j :: js) = max j.depth (depthItems js) := rfl

theorem Json.depth_le_of_mem {js : List Json} {j : Json} (h : j ∈ js) :
    j.depth ≤ depthItems js := by
  induction js with
  | nil => cases h
  | cons k js ih =>
    rw [Json.depthItems_cons]
    rcases List.mem_cons.1 h with rfl | hrest
    · exact Nat.le_max_left ..
    · exact Nat.le_trans (ih hrest) (Nat.le_max_right ..)

theorem Json.exactItems_map {α : Type} {write : α → Json} {as : List α}
    (h : ∀ a ∈ as, Exact (write a)) : ExactItems (as.map write) := by
  induction as with
  | nil => trivial
  | cons a as ih =>
    exact ⟨h a (List.mem_cons_self ..), ih fun b hb => h b (List.mem_cons_of_mem a hb)⟩

theorem Json.exactMembers_map {α : Type} {write : α → Json} {entries : List (String × α)}
    (h : ∀ entry ∈ entries, Exact (write entry.2)) :
    ExactMembers (entries.map fun (name, a) => (name, write a)) := by
  induction entries with
  | nil => trivial
  | cons entry entries ih =>
    exact ⟨h entry (List.mem_cons_self ..), ih fun e he => h e (List.mem_cons_of_mem entry he)⟩

theorem mapM_of_inverts {α : Type} {d : Decoder α} {write : α → Json} {as : List α} {levels : Nat}
    (h : ∀ a ∈ as, Inverts d write a) (hdepth : depthItems (as.map write) ≤ levels) :
    (as.map write).mapM (d levels) = some as := by
  induction as with
  | nil => rfl
  | cons a as ih =>
    rw [List.map_cons, Json.depthItems_cons] at hdepth
    obtain ⟨hfirst, hrest⟩ := Nat.max_le.1 hdepth
    have ha := h a (List.mem_cons_self ..) levels hfirst
    have has := ih (fun b hb => h b (List.mem_cons_of_mem a hb)) hrest
    simp [ha, has]

theorem inverts_list {α : Type} {d : Decoder α} {write : α → Json} {as : List α}
    (h : ∀ a ∈ as, Inverts d write a) : Inverts (list d) (fun as => .array (as.map write)) as := by
  intro levels hdepth
  cases levels with
  | zero => exact absurd hdepth (Nat.not_succ_le_zero _)
  | succ levels => exact mapM_of_inverts h (Nat.le_of_succ_le_succ hdepth)

theorem inverts_members {α : Type} {d : Decoder α} {write : α → Json} {entries : List (String × α)}
    (h : ∀ entry ∈ entries, Inverts d write entry.2) :
    Inverts (members d) (fun entries => .object (entries.map fun (name, a) => (name, write a)))
      entries := by
  intro levels hdepth
  cases levels with
  | zero => exact absurd hdepth (Nat.not_succ_le_zero _)
  | succ levels =>
    replace hdepth := Nat.le_of_succ_le_succ hdepth
    simp only [members]
    induction entries with
    | nil => rfl
    | cons entry entries ih =>
      obtain ⟨name, a⟩ := entry
      obtain ⟨hfirst, hrest⟩ := Nat.max_le.1 hdepth
      have ha := h (name, a) (List.mem_cons_self ..) levels hfirst
      have has := ih (fun e he => h e (List.mem_cons_of_mem _ he)) hrest
      simp [ha, has]

/-! ### Parts of an action -/

theorem Commit.inverts (c : Commit) : Inverts decode toJson c := by
  intro levels hdepth
  cases levels with
  | zero => exact absurd hdepth (by simp [toJson, depth])
  | succ levels => simp [decode, toJson, record, once, required, string, Json.Decode.bool]

theorem Convention.inverts (c : Convention) : Inverts decode (fun c => .string c.name) c := by
  intro levels _
  cases c <;> rfl

theorem BranchPolicy.inverts (p : BranchPolicy) : Inverts decode toJson p := by
  intro levels hdepth
  obtain ⟨pattern, prerelease, token⟩ := p
  cases levels with
  | zero => exact absurd hdepth (by simp [toJson, depth])
  | succ levels =>
    cases token <;> simp [decode, toJson, record, once, required, defaulted, nullable, string,
        Json.Decode.bool]

theorem ReleasePolicy.insertGroup_eq_append {groups : List (String × BranchPolicy)} {name : String}
    (p : BranchPolicy) (h : ∀ k ∈ groups.map (·.1), k < name) :
    insertGroup name p groups = groups ++ [(name, p)] := by
  induction groups with
  | nil => rfl
  | cons group groups ih =>
    obtain ⟨other, q⟩ := group
    have hlt : other < name := h other (by simp)
    have hne : name ≠ other := by
      rintro rfl
      exact String.lt_irrefl _ hlt
    have hnot : ¬name < other := fun hname => String.lt_irrefl _ (String.lt_trans hname hlt)
    have hrest := ih fun l hl => h l (List.mem_cons_of_mem other hl)
    rw [insertGroup, if_neg hne, if_neg hnot, hrest]
    rfl

theorem ReleasePolicy.ofList_eq {p : ReleasePolicy} (h : Ascending (p.groups.map (·.1))) :
    ofList p.allowZeroVersion p.groups = p := by
  have hgroups := Ascending.foldl_insert (t := []) insertGroup_eq_append h
  rw [List.nil_append] at hgroups
  rw [ofList]
  exact congrArg (ReleasePolicy.mk · p.allowZeroVersion) hgroups

theorem ReleasePolicy.inverts {p : ReleasePolicy} (h : Ascending (p.groups.map (·.1))) :
    Inverts decode toJson p := by
  intro levels hdepth
  cases levels with
  | zero => exact absurd hdepth (Nat.not_succ_le_zero _)
  | succ levels =>
    obtain ⟨hgroups, -⟩ := Nat.max_le.1 (Nat.le_of_succ_le_succ hdepth)
    have hread := inverts_members (fun entry _ => BranchPolicy.inverts entry.2) levels hgroups
    simp [decode, toJson, record, once, required, Json.Decode.bool, hread, ofList_eq h]

/-- Settings whose policies and values are in the order of their keys, as all settings are, and
whose values JSON can carry. -/
structure Configuration.Portable (c : Configuration) : Prop where
  groups : Ascending (c.release.groups.map (·.1))
  keys : Ascending (c.extra.map (·.1))
  values : Toml.PortableEntries c.extra

theorem Toml.portable_of_mem {entries : List (String × Toml)} (h : PortableEntries entries)
    {entry : String × Toml} (hmem : entry ∈ entries) : Portable entry.2 := by
  induction entries with
  | nil => cases hmem
  | cons first entries ih =>
    rcases List.mem_cons.1 hmem with rfl | hrest
    · exact h.1
    · exact ih h.2 hrest

theorem Toml.inverts_extra {t : Table} (hkeys : Ascending (t.map (·.1)))
    (hvalues : PortableEntries t) : Inverts decodeExtra extraJson t := by
  intro levels hdepth
  have hmember : ∀ entry ∈ t, Inverts ofJson toJson entry.2 := fun entry hentry levels hlevels =>
    ofJson_toJson (portable_of_mem hvalues hentry) hlevels
  have hread : members ofJson levels (extraJson t) = some t :=
    inverts_members hmember levels hdepth
  rw [decodeExtra, hread, Option.map_some, Table.ofList_eq hkeys]

theorem Configuration.inverts {c : Configuration} (h : c.Portable) : Inverts decode toJson c := by
  intro levels hdepth
  cases levels with
  | zero => exact absurd hdepth (Nat.not_succ_le_zero _)
  | succ levels =>
    have hmembers := Nat.le_of_succ_le_succ hdepth
    simp only [depthMembers, Nat.max_le] at hmembers
    obtain ⟨-, -, -, -, -, hrelease, hextra, -⟩ := hmembers
    have hconvention : Convention.decode levels (.string c.convention.name) = some c.convention :=
      Convention.inverts c.convention levels (Nat.zero_le _)
    have hpolicy := ReleasePolicy.inverts h.groups levels hrelease
    have hvalues := Toml.inverts_extra h.keys h.values levels hextra
    obtain ⟨pattern, hfields, hpattern⟩ : ∃ pattern, record ["commit_type", "hvcs_client_name",
        "hvcs_domain", "tag_format_str", "mask_initial_release", "release", "extra_configs"]
        (levels + 1) c.toJson =
          some ([some (.string c.convention.name), some (.string c.hostClient),
            some (.string c.hostDomain), some pattern, some (.bool c.maskInitialRelease),
            some c.release.toJson, some (Toml.extraJson c.extra)], levels) ∧
        nullable string levels pattern = some c.tagPattern :=
      ⟨_, rfl, by cases c.tagPattern <;> rfl⟩
    simp only [decode, hfields, required, defaulted, hconvention, hpolicy, hvalues, hpattern,
      Option.bind_eq_bind, Option.bind_some, string, Json.Decode.bool]
    rfl

theorem Checkout.inverts (c : Checkout) : Inverts decode toJson c := by
  intro levels hdepth
  cases c with
  | existing branch =>
    have hone : 1 ≤ levels := by simpa [toJson, depth, depthMembers] using hdepth
    obtain ⟨levels, rfl⟩ := Nat.exists_eq_add_of_le' hone
    simp [decode, toJson, Json.isReadable, Json.membersReadable, once, string]
  | create name start =>
    have htwo : 2 ≤ levels := by simpa [toJson, depth, depthMembers] using hdepth
    obtain ⟨levels, rfl⟩ := Nat.exists_eq_add_of_le' htwo
    simp [decode, decodeCreate, toJson, Json.isReadable, Json.membersReadable, depth, depthMembers,
      once, record, required, string]

theorem Merge.inverts (m : Merge) : Inverts decode toJson m := by
  intro levels hdepth
  obtain ⟨branch, fastForward, commit⟩ := m
  cases levels with
  | zero => exact absurd hdepth (Nat.not_succ_le_zero _)
  | succ levels =>
    cases commit with
    | none => simp [decode, toJson, record, once, required, defaulted, string, Json.Decode.bool]
    | some c =>
      have hmembers := Nat.le_of_succ_le_succ hdepth
      have hcommit : c.toJson.depth ≤ levels := by simpa [depthMembers, depth] using hmembers
      have hread : nullable Commit.decode levels c.toJson = some (some c) :=
        congrArg (Option.map some) (Commit.inverts c levels hcommit)
      simp [decode, toJson, record, once, required, defaulted, string, Json.Decode.bool, hread]

namespace ChangelogUpdate

theorem inverts_file (f : ChangelogFile) : Inverts decodeFile fileJson f := by
  intro levels hdepth
  obtain ⟨path, format⟩ := f
  cases levels with
  | zero => exact absurd hdepth (Nat.not_succ_le_zero _)
  | succ levels =>
    have hformat : ChangelogFormat.decode levels (.string format.name) = some format := by
      cases format <;> rfl
    simp [decodeFile, fileJson, record, once, required, string, hformat]

theorem inverts (u : ChangelogUpdate) : Inverts decode toJson u := by
  intro levels hdepth
  cases levels with
  | zero => exact absurd hdepth (Nat.not_succ_le_zero _)
  | succ levels =>
    have hmembers := Nat.le_of_succ_le_succ hdepth
    have hfiles : (Json.array (u.files.map fileJson)).depth ≤ levels := by
      simpa [depthMembers, depth] using hmembers
    have hread : list decodeFile levels (.array (u.files.map fileJson)) = some u.files :=
      inverts_list (fun f _ => inverts_file f) levels hfiles
    simp [decode, toJson, record, once, required, string, hread]

end ChangelogUpdate

/-! ### Actions -/

namespace Action

mutual

/-- An action whose settings, those of actions before a release included, JSON can carry. -/
def Portable : Action → Prop
  | configure c => c.Portable
  | release _ _ before => PortableAll before
  | _ => True

/-- Actions whose settings JSON can carry. -/
def PortableAll : List Action → Prop
  | [] => True
  | a :: as => Portable a ∧ PortableAll as

end

theorem toJsonAll_eq_map (as : List Action) : toJsonAll as = as.map toJson := by
  induction as with
  | nil => rfl
  | cons a as ih => rw [toJsonAll, ih, List.map_cons]

theorem portable_of_mem {as : List Action} (h : PortableAll as) {a : Action} (hmem : a ∈ as) :
    Portable a := by
  induction as with
  | nil => cases hmem
  | cons first as ih =>
    rcases List.mem_cons.1 hmem with rfl | hrest
    · exact h.1
    · exact ih h.2 hrest

theorem depth_tagged (kind : Kind) (details : Json) :
    (tagged kind details).depth = details.depth + 1 := by
  simp [tagged, depth, depthMembers]

theorem split_tagged (kind : Kind) (details : Json) (levels : Nat) :
    split (levels + 1) (tagged kind details) = some (kind, details, levels) := by
  have hkind : decodeKind levels (.string kind.name) = some kind := by cases kind <;> rfl
  simp [split, tagged, once, hkind]

/-- The fields of an action as JSON. -/
def details : Action → Json
  | configure c => c.toJson
  | checkout c => c.toJson
  | merge m => m.toJson
  | commits cs => .object [("commits", .array (cs.map Commit.toJson))]
  | release version datetime before =>
    .object [("version", .string version), ("datetime", .string datetime),
      ("pre_actions", .array (before.map toJson))]
  | changelogs u => u.toJson

theorem toJson_eq_tagged (a : Action) : a.toJson = tagged a.kind a.details := by
  cases a with
  | release version datetime before => rw [toJson, toJsonAll_eq_map, kind, details]
  | _ => rfl

theorem inverts_within {bound : Nat} : ∀ {a : Action}, a.Portable → a.toJson.depth < bound →
    Inverts (decodeWithin bound) toJson a := by
  induction bound with
  | zero => exact fun _ h => absurd h (Nat.not_lt_zero _)
  | succ bound ih =>
    intro a hportable hbound levels hdepth
    rw [toJson_eq_tagged, depth_tagged] at hbound hdepth
    rw [toJson_eq_tagged]
    obtain ⟨levels, rfl⟩ := Nat.exists_eq_add_of_le' (Nat.le_trans (Nat.le_add_left 1 _) hdepth)
    replace hdepth : a.details.depth ≤ levels := Nat.le_of_succ_le_succ hdepth
    replace hbound : a.details.depth < bound := Nat.lt_of_succ_lt_succ hbound
    simp only [decodeWithin, split_tagged, Option.bind_eq_bind, Option.bind_some]
    cases a with
    | configure c =>
      have hread : Configuration.decode levels (details (configure c)) = some c :=
        Configuration.inverts hportable levels hdepth
      simp only [kind, hread, Option.bind_some]
      rfl
    | checkout c =>
      have hread : Checkout.decode levels (details (checkout c)) = some c :=
        Checkout.inverts c levels hdepth
      simp only [kind, hread, Option.bind_some]
      rfl
    | merge m =>
      have hread : Merge.decode levels (details (merge m)) = some m := Merge.inverts m levels hdepth
      simp only [kind, hread, Option.bind_some]
      rfl
    | changelogs u =>
      have hread : ChangelogUpdate.decode levels (details (changelogs u)) = some u :=
        ChangelogUpdate.inverts u levels hdepth
      simp only [kind, hread, Option.bind_some]
      rfl
    | commits cs =>
      obtain ⟨levels, rfl⟩ := Nat.exists_eq_add_of_le' (Nat.le_trans (Nat.le_add_left 1 _) hdepth)
      have hcommits : (Json.array (cs.map Commit.toJson)).depth ≤ levels := by
        simpa [details, depth, depthMembers] using hdepth
      have hread : list Commit.decode levels (.array (cs.map Commit.toJson)) = some cs :=
        inverts_list (fun c _ => Commit.inverts c) levels hcommits
      simp [kind, details, record, once, required, hread]
    | release version datetime before =>
      obtain ⟨levels, rfl⟩ := Nat.exists_eq_add_of_le' (Nat.le_trans (Nat.le_add_left 1 _) hdepth)
      have hitems : (Json.array (before.map toJson)).depth ≤ levels := by
        simpa [details, depth, depthMembers] using hdepth
      have hbefore : ∀ a ∈ before, Inverts (decodeWithin bound) toJson a := by
        intro a ha
        have hle : a.toJson.depth ≤ depthItems (before.map toJson) :=
          Json.depth_le_of_mem (List.mem_map_of_mem ha)
        have htotal : depthItems (before.map toJson) + 2 < bound := by
          simpa [details, depth, depthMembers] using hbound
        exact ih (portable_of_mem hportable ha) (by omega)
      have hread : list (decodeWithin bound) levels (.array (before.map toJson)) = some before :=
        inverts_list hbefore levels hitems
      simp [kind, details, record, once, required, defaulted, string, hread]

end Action

/-! ### The form of a definition is exact -/

theorem Commit.exact (c : Commit) : c.toJson.Exact := ⟨trivial, trivial, trivial, trivial⟩

theorem BranchPolicy.exact (p : BranchPolicy) : p.toJson.Exact := by
  obtain ⟨pattern, prerelease, token⟩ := p
  cases token <;> simp [toJson, Json.Exact, Json.ExactMembers]

theorem ReleasePolicy.exact (p : ReleasePolicy) : p.toJson.Exact :=
  ⟨Json.exactMembers_map fun entry _ => BranchPolicy.exact entry.2, trivial, trivial⟩

theorem Configuration.exact {c : Configuration} (h : c.Portable) : c.toJson.Exact := by
  have hextra : (Toml.extraJson c.extra).Exact :=
    Json.exactMembers_map fun entry hentry =>
      Toml.exact_toJson (Toml.portable_of_mem h.values hentry)
  have hpolicy := ReleasePolicy.exact c.release
  cases hpattern : c.tagPattern <;>
    simp [toJson, Json.Exact, Json.ExactMembers, hpattern, hpolicy, hextra]

theorem Checkout.exact (c : Checkout) : c.toJson.Exact := by
  cases c <;> simp [toJson, Json.Exact, Json.ExactMembers]

theorem Merge.exact (m : Merge) : m.toJson.Exact := by
  obtain ⟨branch, fastForward, commit⟩ := m
  cases commit with
  | none => simp [toJson, Json.Exact, Json.ExactMembers]
  | some c => simp [toJson, Json.Exact, Json.ExactMembers, Commit.exact c]

theorem ChangelogUpdate.exact (u : ChangelogUpdate) : u.toJson.Exact := by
  have hfiles : Json.ExactItems (u.files.map fileJson) :=
    Json.exactItems_map fun _ _ => ⟨trivial, trivial, trivial⟩
  exact ⟨trivial, hfiles, trivial⟩

namespace Action

mutual

theorem exact_toJson : ∀ {a : Action}, a.Portable → a.toJson.Exact
  | configure _, h => ⟨trivial, Configuration.exact h, trivial⟩
  | checkout c, _ => ⟨trivial, Checkout.exact c, trivial⟩
  | merge m, _ => ⟨trivial, Merge.exact m, trivial⟩
  | commits _, _ => ⟨trivial, ⟨Json.exactItems_map fun c _ => Commit.exact c, trivial⟩, trivial⟩
  | release _ _ _, h => ⟨trivial, ⟨trivial, trivial, exact_toJsonAll h, trivial⟩, trivial⟩
  | changelogs u, _ => ⟨trivial, ChangelogUpdate.exact u, trivial⟩

theorem exact_toJsonAll : ∀ {as : List Action}, PortableAll as → Json.ExactItems (toJsonAll as)
  | [], _ => trivial
  | _ :: _, h => ⟨exact_toJson h.1, exact_toJsonAll h.2⟩

end

end Action

namespace Definition

/-- A definition whose settings JSON can carry. -/
def Portable (d : Definition) : Prop := Action.PortableAll d

theorem inverts {d : Definition} (h : d.Portable) : Inverts decode toJson d := by
  intro levels hdepth
  have haction : ∀ a ∈ d, Inverts Action.decode Action.toJson a := fun a ha levels hlevels =>
    Action.inverts_within (Action.portable_of_mem h ha) (Nat.lt_succ_self _) levels hlevels
  rw [toJson, Action.toJsonAll_eq_map] at hdepth ⊢
  exact inverts_list haction levels hdepth

theorem exact_toJson {d : Definition} (h : d.Portable) : d.toJson.Exact :=
  Action.exact_toJsonAll h

/-- A definition is read from the text that it is written as, compact or indented, if its values
can be carried and it is nested no deeper than a reader goes. -/
theorem ofText?_toText {d : Definition} (h : d.Portable)
    (hdepth : d.toJson.depth ≤ Json.defaultLevels) :
    ofText? d.toText = some d ∧ ofText? d.toJson.indented = some d := by
  obtain ⟨hcompact, hindented⟩ := Json.parse?_text (exact_toJson h)
  have hread := inverts h Json.defaultLevels hdepth
  constructor
  · rw [ofText?, toText, hcompact]
    exact hread
  · rw [ofText?, hindented]
    exact hread

/-- A leap second on a leap day, with a fraction and an offset. -/
def leapSecond : Toml.Datetime :=
  .ofBoth ⟨2024, 2, 29, by decide, by decide, by decide, by decide, by decide⟩
    ⟨23, 59, 60, 120000000, by decide, by decide, by decide, by decide⟩
    (some (.minutes (-90) (by decide)))

/-- A definition with something of every kind: settings with a date and time inside a table inside
an array, both ways of checking out, merges with and without a commit, and a release inside the
actions before a release. -/
def everyKind : Definition :=
  [.configure {
      convention := .scipy, hostClient := "github", hostDomain := "exa\x22mple\\.com\n\x01",
      tagPattern := none, maskInitialRelease := true, release := ⟨[("beta", ⟨"^b", true, some "b"⟩),
        ("main", ⟨"^main$", false, none⟩)], true⟩
      extra := [("a.b", .array [.table [("since", .datetime leapSecond), ("size", .integer (-7))],
        .boolean true]), ("c", .string "\t\u00e9")] },
    .checkout (.create "dev" "main"), .checkout (.existing "main"), .merge ⟨"dev", true, none⟩,
    .merge ⟨"dev", false, some ⟨"merge", "2024-01-01T00:00:00+00:00", false⟩⟩,
    .release "1.0.0" "2024-01-01T00:00:01+00:00" [.release "0.9.0" "2024-01-01T00:00:00+00:00"
      [.commits [⟨"fix: a", "2024-01-01T00:00:00+00:00", true⟩]],
      .changelogs ⟨"1.0.0", [⟨"CHANGELOG.rst", .restructuredText⟩]⟩]]

theorem portable_everyKind : everyKind.Portable := by
  have hvalues : Toml.PortableEntries [("a.b", .array [.table [("since", .datetime leapSecond),
      ("size", .integer (-7))], .boolean true]), ("c", .string "\t\u00e9")] :=
    ⟨⟨⟨by decide, by decide, trivial, ⟨by decide, by decide⟩, trivial⟩, trivial, trivial⟩,
      trivial, trivial⟩
  have hsettings : Action.Portable (everyKind.head (by decide)) :=
    ⟨by decide, by decide, hvalues⟩
  exact ⟨hsettings, trivial, trivial, trivial, trivial, ⟨⟨trivial, trivial⟩, trivial, trivial⟩,
    trivial⟩

theorem ofText?_toText_everyKind :
    everyKind.Portable ∧ everyKind.toJson.depth ≤ Json.defaultLevels ∧
      ofText? everyKind.toText = some everyKind ∧
      ofText? everyKind.toJson.indented = some everyKind := by
  have hdepth : everyKind.toJson.depth ≤ Json.defaultLevels := by decide
  exact ⟨portable_everyKind, hdepth, ofText?_toText portable_everyKind hdepth⟩

end Definition

end ReleaseHistory
