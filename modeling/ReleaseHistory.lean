import ReleaseHistory.Main
import ReleaseHistory.WorkTree.Recorder
import ReleaseHistory.Proofs.Version.Precedence
import ReleaseHistory.Proofs.Version.Reading
import ReleaseHistory.Proofs.Version.Grammar
import ReleaseHistory.Proofs.Version.Prerelease
import ReleaseHistory.Proofs.Version.Channel
import ReleaseHistory.Proofs.Operation
import ReleaseHistory.Proofs.TagFormat
import ReleaseHistory.Proofs.ReleaseDocument
import ReleaseHistory.Proofs.Changelog
import ReleaseHistory.Proofs.Replay.Lockstep
import ReleaseHistory.Proofs.WorkTree.Recorder
import ReleaseHistory.Proofs.Time.Instant
import ReleaseHistory.Proofs.Definition.Step
import ReleaseHistory.Proofs.Definition.Validity
import ReleaseHistory.Proofs.Definition.Progress
import ReleaseHistory.Proofs.Text.Split
import ReleaseHistory.Proofs.FileTree.View
import ReleaseHistory.Proofs.FileTree.Route
import ReleaseHistory.Proofs.FileTree.Copy
import ReleaseHistory.Proofs.FileTree.Overlay
import ReleaseHistory.Proofs.Cache.Session
import ReleaseHistory.Proofs.Cache.Place
import ReleaseHistory.Proofs.Cache.Target
import ReleaseHistory.Proofs.Cache.Journal
import ReleaseHistory.Proofs.Cache.Runs
import ReleaseHistory.Proofs.Cache.Shared
import ReleaseHistory.Proofs.Text.Digits
import ReleaseHistory.Proofs.Time.Calendar
import ReleaseHistory.Proofs.Time.Timestamp
import ReleaseHistory.Proofs.Time.Clock
import ReleaseHistory.Proofs.Definition.Alike
import ReleaseHistory.Proofs.Scenario.GitFlow
import ReleaseHistory.Proofs.Scenario.GitFlowEntries
import ReleaseHistory.Proofs.Json.Scalar
import ReleaseHistory.Proofs.Json.Text
import ReleaseHistory.Proofs.Toml.Datetime
import ReleaseHistory.Proofs.Toml.Json
import ReleaseHistory.Proofs.Toml.Path
import ReleaseHistory.Proofs.Toml.InPlace
import ReleaseHistory.Proofs.Action.Wire
import ReleaseHistory.Proofs.Git.History
import ReleaseHistory.Proofs.Git.Store
import ReleaseHistory.Proofs.Git.Object
import ReleaseHistory.Proofs.Git.Merge
import ReleaseHistory.Proofs.Git.Coherent
import ReleaseHistory.Proofs.WorkTree.Files
import ReleaseHistory.Proofs.FileTree.Write
import ReleaseHistory.Proofs.WorkTree.Staging
import ReleaseHistory.Proofs.Git.RefName
import ReleaseHistory.Proofs.WorkTree.Repository
import ReleaseHistory.Proofs.WorkTree.Included
import ReleaseHistory.Proofs.WorkTree.Shown
import ReleaseHistory.Proofs.Git.Revision
import ReleaseHistory.Proofs.Git.BranchName
import ReleaseHistory.Proofs.WorkTree.Calls
import ReleaseHistory.Proofs.WorkTree.MergeBack
import ReleaseHistory.Proofs.WorkTree.Preservation
import ReleaseHistory.Proofs.WorkTree.Stores
import ReleaseHistory.Proofs.WorkTree.Placed
import ReleaseHistory.Proofs.WorkTree.Clean
import ReleaseHistory.Proofs.Replay.Preservation
import ReleaseHistory.Proofs.Replay.Tags
import ReleaseHistory.Proofs.Replay.Trees
import ReleaseHistory.Proofs.Replay.Unsettled
import ReleaseHistory.Proofs.WorkTree.Ready
import ReleaseHistory.Proofs.Build
import ReleaseHistory.Proofs.BuildSettings
import ReleaseHistory.Proofs.BuildHash
import ReleaseHistory.Proofs.Replay.Ready
import ReleaseHistory.Proofs.WorkTree.Growth
import ReleaseHistory.Proofs.Replay.Growth
import ReleaseHistory.Proofs.Replay.Outcome
import ReleaseHistory.Proofs.Replay.Completion
import ReleaseHistory.Proofs.Definition.Releases
import ReleaseHistory.Proofs.Definition.Seconds
import ReleaseHistory.Proofs.Definition.Refusal
import ReleaseHistory.Proofs.Git.Behind
import ReleaseHistory.Proofs.Git.ThreeWay
import ReleaseHistory.Proofs.Replay.Sketch
import ReleaseHistory.Proofs.Replay.Sketched
import ReleaseHistory.Proofs.Replay.Followed
import ReleaseHistory.Proofs.WorkTree.Agreement
import ReleaseHistory.Proofs.WorkTree.Orderly
import ReleaseHistory.Proofs.WorkTree.Merging
import ReleaseHistory.Proofs.Scenario.GitFlowBuild
import ReleaseHistory.Proofs.WorkTree.Entries
import ReleaseHistory.Proofs.Git.LogOrder
import ReleaseHistory.Proofs.WorkTree.Founded
import ReleaseHistory.Proofs.WorkTree.Reports
