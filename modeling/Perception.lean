import Perception.Audio.Backend
import Perception.Audio.Chronicle
import Perception.Audio.Clip
import Perception.Audio.Decode
import Perception.Audio.Selection
import Perception.Audio.Wave
import Perception.Classification.Basic
import Perception.Classification.Ranking
import Perception.Colour.Basic
import Perception.Colour.Blend
import Perception.Colour.Read
import Perception.CommandLine.Arguments
import Perception.CommandLine.Usage
import Perception.CommandLine.Words
import Perception.Compute.Device
import Perception.Dataset.Batch
import Perception.Dataset.Feed
import Perception.Dataset.Folder
import Perception.Dataset.Options
import Perception.Dataset.Order
import Perception.Dataset.Stats
import Perception.Dataset.Transform
import Perception.Dataset.Workbench
import Perception.Datum
import Perception.Datum.Listed
import Perception.Datum.Number
import Perception.Datum.Shown
import Perception.Failure
import Perception.Files.Path
import Perception.Files.Tree
import Perception.Image.Basic
import Perception.Image.Drawing
import Perception.Image.Filled
import Perception.Image.Grid
import Perception.Image.OfArray
import Perception.Image.Raster
import Perception.Image.Resample
import Perception.Image.Save
import Perception.Image.Source
import Perception.Journal.Chronicle
import Perception.Journal.Root
import Perception.Json.Printer
import Perception.Json.Reader
import Perception.Json.Syntax
import Perception.Json.Token
import Perception.Main
import Perception.Mask.Basic
import Perception.Mask.Canvas
import Perception.Mask.Drawing
import Perception.Mask.Gallery
import Perception.Mask.Palette
import Perception.Mask.Plot
import Perception.Model.Architecture
import Perception.Model.Artifact
import Perception.Model.Classifier
import Perception.Model.Loader
import Perception.Model.Query
import Perception.Model.Repository
import Perception.Model.Retrieval
import Perception.NdArray.Basic
import Perception.NdArray.Reals
import Perception.NdArray.Tensor
import Perception.Number.Power
import Perception.Number.Read
import Perception.Number.Rounding
import Perception.Number.Shortest
import Perception.Number.Written
import Perception.Program.AudioInfo
import Perception.Program.Basic
import Perception.Program.RenderMask
import Perception.Proofs.Audio.Selection
import Perception.Proofs.Audio.Sources
import Perception.Proofs.Classification.Document
import Perception.Proofs.Classification.Ranking
import Perception.Proofs.Classification.Top
import Perception.Proofs.Colour.Blend
import Perception.Proofs.Colour.Packed
import Perception.Proofs.Colour.Read
import Perception.Proofs.Colour.Spelled
import Perception.Proofs.CommandLine.Arguments
import Perception.Proofs.Dataset.Batches
import Perception.Proofs.Dataset.FullPass
import Perception.Proofs.Dataset.Isolation
import Perception.Proofs.Dataset.OwnGenerator
import Perception.Proofs.Dataset.Pass
import Perception.Proofs.Dataset.Sample
import Perception.Proofs.Dataset.Workbench
import Perception.Proofs.Datum
import Perception.Proofs.Drawing.ClassByClass
import Perception.Proofs.Drawing.Frame
import Perception.Proofs.Drawing.Solid
import Perception.Proofs.Files.Directories
import Perception.Proofs.Files.FreshName
import Perception.Proofs.Files.Reading
import Perception.Proofs.Files.Tree
import Perception.Proofs.Files.Walk
import Perception.Proofs.Files.Written
import Perception.Proofs.Image.Files
import Perception.Proofs.Image.Grid
import Perception.Proofs.Image.Packed
import Perception.Proofs.Image.Places
import Perception.Proofs.Image.Samples
import Perception.Proofs.Journal.FirstLevel
import Perception.Proofs.Json.Atoms
import Perception.Proofs.Json.Grammar
import Perception.Proofs.Json.Lexemes
import Perception.Proofs.Json.Reading
import Perception.Proofs.Json.RoundTrip
import Perception.Proofs.Json.Spelling
import Perception.Proofs.Json.Spread
import Perception.Proofs.Json.Written
import Perception.Proofs.Mask.Backdrop
import Perception.Proofs.Mask.Background
import Perception.Proofs.Mask.Clipped
import Perception.Proofs.Mask.Document
import Perception.Proofs.Mask.Gallery
import Perception.Proofs.Mask.PaletteStream
import Perception.Proofs.Mask.Places
import Perception.Proofs.Mask.Plot
import Perception.Proofs.Mask.RoundTrip
import Perception.Proofs.Mask.Seen
import Perception.Proofs.Mask.Validity
import Perception.Proofs.Model.Address
import Perception.Proofs.Model.Cache
import Perception.Proofs.Model.Failures
import Perception.Proofs.Model.Labels
import Perception.Proofs.Model.Provenance
import Perception.Proofs.Model.Retrieval
import Perception.Proofs.Model.Returned
import Perception.Proofs.Model.Shelf
import Perception.Proofs.NdArray.Nested
import Perception.Proofs.NdArray.Rows
import Perception.Proofs.NdArray.Stack
import Perception.Proofs.NdArray.Tensor
import Perception.Proofs.Number.Hexadecimal
import Perception.Proofs.Number.Numeral
import Perception.Proofs.Number.Order
import Perception.Proofs.Number.Written
import Perception.Proofs.Outcome
import Perception.Proofs.Program.AudioInfo
import Perception.Proofs.Program.RenderMask
import Perception.Proofs.Program.RenderMask.Material
import Perception.Proofs.Program.RenderMask.Picture
import Perception.Proofs.Random.Draws
import Perception.Proofs.Random.Permutation
import Perception.Proofs.Random.Workers
import Perception.Proofs.Session
import Perception.Proofs.Settings.InForce
import Perception.Proofs.Text.Cut
import Perception.Proofs.Text.Split
import Perception.Proofs.Text.Trim
import Perception.Proofs.Text.Utf8
import Perception.Proofs.Uri.Percent
import Perception.Proofs.Web.Crew
import Perception.Proofs.Web.Download
import Perception.Proofs.Web.Landing
import Perception.Proofs.Web.Meeting
import Perception.Proofs.Web.Site
import Perception.Random.Generator
import Perception.Random.Streams
import Perception.Session
import Perception.Settings.Basic
import Perception.Settings.Chronicle
import Perception.Text.Blank
import Perception.Text.Digit
import Perception.Text.Printable
import Perception.Text.Quoted
import Perception.Text.Utf8
import Perception.Uri.Basic
import Perception.Uri.Percent
import Perception.Web.Crew
import Perception.Web.Download
import Perception.Web.Host
import Perception.Web.Reply
import Perception.Yaml.Cursor
import Perception.Yaml.Kind
import Perception.Yaml.Node
import Perception.Yaml.Scalar
import Perception.Yaml.Token
import Perception.Yaml.Value
import Perception.Proofs.Uri.File
import Perception.Proofs.Model.SameFile
import Perception.Proofs.Model.Layout
