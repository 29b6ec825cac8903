import ContentSchema.Collection.Compile
import ContentSchema.Collection.Wire
import ContentSchema.Main
import ContentSchema.Project.Engine
import ContentSchema.Report
import ContentSchema.Text.Utf8
import ContentSchema.Proofs.Cache.Run
import ContentSchema.Proofs.Enrich.BlockTypes
import ContentSchema.Proofs.Enrich.Frame
import ContentSchema.Proofs.Draft.Lenient
import ContentSchema.Proofs.Draft.Meaning
import ContentSchema.Proofs.Watch.Settled
import ContentSchema.Proofs.Walk.Sites
import ContentSchema.Proofs.Walk.Unions
import ContentSchema.Proofs.Collection.Compile
import ContentSchema.Proofs.Json.Records
import ContentSchema.Proofs.Shape.Wire
import ContentSchema.Proofs.Shape.Reader
import ContentSchema.Proofs.Shape.Rearranged
import ContentSchema.Proofs.Json.Text
import ContentSchema.Proofs.Draft.Settled
import ContentSchema.Proofs.Draft.WellFormed
import ContentSchema.Proofs.Json.Layout
import ContentSchema.Proofs.Collection.RepeatedPaths
import ContentSchema.Proofs.Collection.Report
import ContentSchema.Proofs.Project.Staging
import ContentSchema.Proofs.Watch.Reports
import ContentSchema.Proofs.Walk.Warnings
import ContentSchema.Proofs.Walk.Catalog
import ContentSchema.Proofs.Cache.Counters
import ContentSchema.Proofs.Script.Reply
import ContentSchema.Proofs.Script.Diagnosis
import ContentSchema.Proofs.Script.Nesting
import ContentSchema.Proofs.Draft.Objects
import ContentSchema.Proofs.Collection.Tables
