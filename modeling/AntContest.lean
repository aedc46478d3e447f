import AntContest.Brain.Basic
import AntContest.Brain.Instruction
import AntContest.Brain.Keyword
import AntContest.Brain.Reader
import AntContest.Brain.Source
import AntContest.Colony
import AntContest.Command.Arguments
import AntContest.Command.Execute
import AntContest.Command.Files
import AntContest.Command.Help
import AntContest.Command.Host
import AntContest.Command.Options
import AntContest.Command.Program
import AntContest.Command.Switch
import AntContest.Command.Transcript
import AntContest.Command.Usage
import AntContest.Cup.Knockout
import AntContest.Cup.Match
import AntContest.Cup.Result
import AntContest.Disk.Basic
import AntContest.Disk.Path
import AntContest.Game.Act
import AntContest.Game.Basic
import AntContest.Game.Consistency
import AntContest.Game.Dump
import AntContest.Game.Encirclement
import AntContest.Game.Play
import AntContest.Game.Turn
import AntContest.Ground.Basic
import AntContest.Ground.Cell
import AntContest.Ground.MapReader
import AntContest.Ground.MapText
import AntContest.Ground.Scatter
import AntContest.Hex
import AntContest.Json.Decode
import AntContest.Json.Reader
import AntContest.Json.Token
import AntContest.Json.Value
import AntContest.Json.Writer
import AntContest.Main
import AntContest.Picture
import AntContest.Proofs.Brain.SourceRoundTrip
import AntContest.Proofs.Game.Coherence
import AntContest.Proofs.Game.Course
import AntContest.Proofs.Game.Deed
import AntContest.Proofs.Game.FoodBalance
import AntContest.Proofs.Game.Roster
import AntContest.Proofs.Game.Stepping
import AntContest.Proofs.Ground.Built
import AntContest.Proofs.Ground.Census
import AntContest.Proofs.Ground.Exchange
import AntContest.Proofs.Ground.MapRoundTrip
import AntContest.Proofs.Recording.Fidelity
import AntContest.Proofs.Recording.TimeTravel
import AntContest.Proofs.Text.Layout
import AntContest.Random
import AntContest.Recording.Basic
import AntContest.Recording.Document
import AntContest.Recording.Playback
import AntContest.Report.Average
import AntContest.Report.Document
import AntContest.Report.Standing
import AntContest.Report.Table
import AntContest.Report.Text
import AntContest.Text.Blank
import AntContest.Text.Decimal
import AntContest.Text.Hidden
import AntContest.Text.Pieces
import AntContest.Text.Quoted
import AntContest.Viewer
import AntContest.Proofs.Game.ColonySymmetry
import AntContest.Proofs.Game.Reconfiguring
import AntContest.Proofs.Game.Restart
import AntContest.Proofs.Game.StaticJumps
import AntContest.Proofs.Game.Violations
import AntContest.Proofs.Game.Leftovers
import AntContest.Proofs.Picture.Shown
import AntContest.Proofs.Picture.Faithful
import AntContest.Proofs.Game.Lifecycle
import AntContest.Proofs.Brain.CanonicalText
import AntContest.Proofs.Cup.ListingSymmetry
import AntContest.Proofs.Cup.Rounds
import AntContest.Proofs.Cup.Knockout
import AntContest.Proofs.Ground.RowMajor
import AntContest.Proofs.Ground.MapFormat
import AntContest.Proofs.Text.Cutting
import AntContest.Proofs.Ground.Placement
import AntContest.Proofs.Ground.GeneratedMap
import AntContest.Proofs.Ground.Paths
import AntContest.Proofs.Ground.Reachability
import AntContest.Proofs.Brain.Grammar
import AntContest.Proofs.Game.Settings
import AntContest.Proofs.Game.Observed
import AntContest.Proofs.Game.Casualties
import AntContest.Proofs.Game.Reproduction
import AntContest.Proofs.Game.Running
import AntContest.Proofs.Ground.Distance
import AntContest.Proofs.Game.Posts
import AntContest.Proofs.Game.Effect
import AntContest.Proofs.Game.Independence
import AntContest.Proofs.Game.Encirclement
import AntContest.Proofs.Game.Diary
import AntContest.Proofs.Game.RestSchedule
import AntContest.Proofs.Ground.ShortestPath
import AntContest.Proofs.Text.ByteOrder
import AntContest.Proofs.Cup.MatchRecord
import AntContest.Proofs.Cup.Standings
import AntContest.Proofs.Cup.Flipless
import AntContest.Proofs.Report.Standing
import AntContest.Proofs.Random.Period
import AntContest.Proofs.Random.Range
import AntContest.Proofs.Game.CellLine
import AntContest.Proofs.Game.Dump
import AntContest.Proofs.Text.Splicing
import AntContest.Proofs.Brain.FreeLayout
import AntContest.Proofs.Viewer.Pace
import AntContest.Proofs.Viewer.Gauge
import AntContest.Proofs.Text.CommaSeparated
import AntContest.Proofs.Cup.Table
import AntContest.Proofs.Outcome
import AntContest.Proofs.Json.Lexis
import AntContest.Proofs.Json.RoundTrip
import AntContest.Proofs.Json.Fields
import AntContest.Proofs.Disk.ReadBack
import AntContest.Proofs.Recording.Transcript
import AntContest.Proofs.Recording.Wording
import AntContest.Proofs.Ground.Adjacency
import AntContest.Proofs.Ground.Register
import AntContest.Proofs.Ground.Storage
import AntContest.Proofs.Ground.Stamping
import AntContest.Proofs.Game.Counters
import AntContest.Proofs.Cup.Totals
