import JosfraPge.Launcher.SetConfigScalar
import JosfraPge.Foundation.XmlScan
import JosfraPge.Foundation.XmlTree
import JosfraPge.Foundation.XmlDocument
import JosfraPge.Product.CasDocument
import JosfraPge.Foundation.CivilCalendar
import JosfraPge.Foundation.IntLiteral
import JosfraPge.Foundation.TimeFormat
import JosfraPge.Foundation.PosixPath
import JosfraPge.Product.CasMetadata
import JosfraPge.Product.ProductRun
import JosfraPge.Foundation.Interleaving
import JosfraPge.Foundation.UrlSplit
import JosfraPge.Remote.ConfigDownload
import JosfraPge.Review.MergeGate
import JosfraPge.Foundation.DirectoryTree
import JosfraPge.Launcher.LaunchRun
import JosfraPge.Launcher.L1cStaging
import JosfraPge.Foundation.XmlRetext
import JosfraPge.Launcher.ScalarEdits
import JosfraPge.Launcher.DeclaredEdits
import JosfraPge.Launcher.ReadBack
import JosfraPge.Launcher.ArgumentLoop
import JosfraPge.Review.FinalLine
import JosfraPge.Product.ProductionTime
import JosfraPge.Remote.ObjectKeys
import JosfraPge.Remote.RawUrl
import JosfraPge.Product.Provenance
import JosfraPge.Foundation.Redraw
import JosfraPge.Foundation.Refinement
import JosfraPge.Product.Padding
import JosfraPge.Product.Processing
import JosfraPge.Product.RunLog
import JosfraPge.Launcher.Script
import JosfraPge.Foundation.Superseding
import JosfraPge.Foundation.TableCursor
import JosfraPge.Review.Workflow
import JosfraPge.Review.Uncancelled
import JosfraPge.System.Pipeline
import JosfraPge.Toolkit.JulianDay
import JosfraPge.Toolkit.LeapTable
import JosfraPge.Foundation.FixedLayout
import JosfraPge.Toolkit.AsciiTime
import JosfraPge.Toolkit.ProcessControl
import JosfraPge.Remote.Isolation
import JosfraPge.Toolkit.ControlAreas
import JosfraPge.Toolkit.FileNames
import JosfraPge.Toolkit.LookupSafety
import JosfraPge.Toolkit.TimeCheck
import JosfraPge.Toolkit.TimeConversions
import JosfraPge.Toolkit.ToolkitEnvironment
