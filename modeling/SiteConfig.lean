import SiteConfig.Logging.Installation
import SiteConfig.Project.Loader
import SiteConfig.Proofs.Grammar
import SiteConfig.Proofs.DecimalText
import SiteConfig.Proofs.Lexing
import SiteConfig.Proofs.Json
import SiteConfig.Proofs.Fields
import SiteConfig.Proofs.FirstViolation
import SiteConfig.Proofs.Revalidation
import SiteConfig.Proofs.Projection
import SiteConfig.Proofs.WellFormed
import SiteConfig.Proofs.ViablePrefix
import SiteConfig.Proofs.Tiling
import SiteConfig.Proofs.Truncation
import SiteConfig.Proofs.NumeralValues
import SiteConfig.Proofs.StringSpellings
import SiteConfig.Proofs.IntegerOptions
import SiteConfig.Proofs.NumericKeys
import SiteConfig.Proofs.Undeclared
import SiteConfig.Proofs.AlikeInputs
import SiteConfig.Proofs.NumberText
import SiteConfig.Proofs.FieldOrder
import SiteConfig.Proofs.PassThrough
import SiteConfig.Proofs.WrittenSettings
import SiteConfig.Proofs.VariableNames
import SiteConfig.Proofs.Redeclaring
import SiteConfig.Proofs.ProjectRuns
import SiteConfig.Proofs.LoggerRuns
