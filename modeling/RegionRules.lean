import RegionRules.Dispatch.Dispatcher
import RegionRules.Json.Forms
import RegionRules.Region.Atlas
import RegionRules.Settings.Reader
import RegionRules.Proofs.Dispatch.Walks
import RegionRules.Proofs.Dispatch.Regimes
import RegionRules.Proofs.Dispatch.Journeys
import RegionRules.Proofs.Dispatch.Bystanders
import RegionRules.Proofs.Dispatch.Agreement
import RegionRules.Proofs.Dispatch.Notice
import RegionRules.Proofs.Dispatch.Hearings
import RegionRules.Proofs.Dispatch.Uses
import RegionRules.Proofs.Dispatch.Visits
import RegionRules.Proofs.Region.Enumeration
import RegionRules.Proofs.Region.Summaries
import RegionRules.Proofs.Region.Coverage
import RegionRules.Proofs.Region.Steady
import RegionRules.Proofs.Region.Transparency
import RegionRules.Proofs.Region.Freezing
import RegionRules.Proofs.Region.Strategies
import RegionRules.Proofs.Region.Failures
import RegionRules.Proofs.Rule.RuleSet
import RegionRules.Proofs.Bounds.Exactness
import RegionRules.Proofs.Bounds.Lattice
import RegionRules.Proofs.Bounds.ColumnListing
import RegionRules.Proofs.Bounds.Separation
import RegionRules.Proofs.Region.Ranges
import RegionRules.Proofs.Region.BlockCuboids
import RegionRules.Proofs.Settings.Versions
