import ReleaseHistory.Action.Basic

/-!
# Changelogs

A changelog has a heading and a section for each release, the newest first. Sections that are there
already stay as they are.
-/

namespace ReleaseHistory.Changelog

def heading : ChangelogFormat → String
  | .markdown => "# CHANGELOG\n\n"
  | .restructuredText => ".. _changelog:\n\n=========\nCHANGELOG\n=========\n\n"

/-- What stands below the heading; all of it if the text does not begin with the heading. -/
def sections (format : ChangelogFormat) (text : String) : String :=
  match Text.dropStart? (heading format).toList text.toList with
  | some rest => String.ofList rest
  | none => text

/-- The section of a release. -/
def newSection (format : ChangelogFormat) (title body : String) : String :=
  match format with
  | .markdown => s!"## {title}\n\n{body}\n"
  | .restructuredText =>
    -- as many columns as the title has bytes, not characters
    let line := String.ofList (List.replicate title.utf8ByteSize '=')
    s!"{title}\n{line}\n\n{body}\n"

/-- A changelog with a section for one more release. The first release can be masked. -/
def update (format : ChangelogFormat) (existing : Option String) (title : String) (mask : Bool) :
    String :=
  let previous := match existing with
    | some text => sections format text
    | none => ""
  let body :=
    if mask && previous.isEmpty then "- Initial Release\n"
    else "- Release generated from repository history\n"
  heading format ++ newSection format title body ++ previous

end ReleaseHistory.Changelog
