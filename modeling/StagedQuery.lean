import StagedQuery.Document.Decoding
import StagedQuery.Expression.Evaluation
import StagedQuery.OneShot
import StagedQuery.Session
import StagedQuery.Proofs.Lists.Positions
import StagedQuery.Proofs.Order.Values
import StagedQuery.Proofs.Sorting.Comparators
import StagedQuery.Proofs.Sorting.Comparisons
import StagedQuery.Proofs.Sorting.Descending
import StagedQuery.Proofs.Sorting.Nestings
import StagedQuery.Proofs.Paging.Slices
import StagedQuery.Proofs.Paging.Exactness
import StagedQuery.Proofs.Duplicates.Representatives
import StagedQuery.Proofs.Duplicates.Sorting
import StagedQuery.Proofs.Duplicates.Truncation
import StagedQuery.Proofs.Construction.Chains
import StagedQuery.Proofs.Construction.Conditions
import StagedQuery.Proofs.Construction.Grammar
import StagedQuery.Proofs.Construction.Omissions
import StagedQuery.Proofs.Construction.States
import StagedQuery.Proofs.Document.Constructions
import StagedQuery.Proofs.Document.Entries
import StagedQuery.Proofs.OneShot.Queries
import StagedQuery.Proofs.OneShot.Texts
import StagedQuery.Proofs.Run.Calls
import StagedQuery.Proofs.Run.FirstPages
import StagedQuery.Proofs.Run.Gathering
import StagedQuery.Proofs.Run.Least
import StagedQuery.Proofs.Run.Limits
import StagedQuery.Proofs.Run.Meaning
import StagedQuery.Proofs.Run.Ordering
import StagedQuery.Proofs.Run.Pages
import StagedQuery.Proofs.Run.Permutations
import StagedQuery.Proofs.Run.Pinning
import StagedQuery.Proofs.Run.Projections
import StagedQuery.Proofs.Run.Remainder
import StagedQuery.Proofs.Run.Reports
import StagedQuery.Proofs.Run.Successions
import StagedQuery.Proofs.Session.Derivations
import StagedQuery.Proofs.Session.Persistence
