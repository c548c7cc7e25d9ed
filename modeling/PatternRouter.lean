import PatternRouter.Config
import PatternRouter.Http.Session
import PatternRouter.Params.Value
import PatternRouter.Pattern.Printer
import PatternRouter.Proofs.Announcement
import PatternRouter.Proofs.CacheClearing
import PatternRouter.Proofs.CacheTransparency
import PatternRouter.Proofs.CacheValidity
import PatternRouter.Proofs.CaseBlindness
import PatternRouter.Proofs.ConfigShapes
import PatternRouter.Proofs.CorsHeaders
import PatternRouter.Proofs.Dispatch
import PatternRouter.Proofs.DistinctKeys
import PatternRouter.Proofs.DistinctNames
import PatternRouter.Proofs.DocumentKeys
import PatternRouter.Proofs.ExpressionGrammar
import PatternRouter.Proofs.FailedRegistration
import PatternRouter.Proofs.Generalization
import PatternRouter.Proofs.GroupAlignment
import PatternRouter.Proofs.HeaderInfluence
import PatternRouter.Proofs.Histories
import PatternRouter.Proofs.HttpRegistry
import PatternRouter.Proofs.Lookup
import PatternRouter.Proofs.NewRoute
import PatternRouter.Proofs.Omission
import PatternRouter.Proofs.PatternPrinting
import PatternRouter.Proofs.PieceMatching
import PatternRouter.Proofs.Policies
import PatternRouter.Proofs.Preflight
import PatternRouter.Proofs.Rearrangement
import PatternRouter.Proofs.Recording
import PatternRouter.Proofs.Registration
import PatternRouter.Proofs.Registry
import PatternRouter.Proofs.Renaming
import PatternRouter.Proofs.RepeatedNames
import PatternRouter.Proofs.ReverseRouting
import PatternRouter.Proofs.SegmentMatching
import PatternRouter.Proofs.Serving
import PatternRouter.Proofs.Slashes
import PatternRouter.Proofs.SortedCompilation
import PatternRouter.Proofs.Specificity
import PatternRouter.Proofs.Spelling
import PatternRouter.Proofs.TableHistory
import PatternRouter.Proofs.TableOrder
import PatternRouter.Proofs.TrailingRest
import PatternRouter.Proofs.Workspaces
import PatternRouter.Router.Session
import PatternRouter.Service.Session
import PatternRouter.Stock
