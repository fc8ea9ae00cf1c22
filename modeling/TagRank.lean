import TagRank.Http.App
import TagRank.Log.Setup
import TagRank.Main
import TagRank.Service.Call
import TagRank.Proofs.Service.Measure
import TagRank.Proofs.Service.Measurement
import TagRank.Proofs.Service.Operation
import TagRank.Proofs.Sorted
import TagRank.Proofs.Service.Cooccurrence
import TagRank.Proofs.Service.Persist
import TagRank.Proofs.Service.Evaluate
import TagRank.Proofs.Store.Occurrence
import TagRank.Proofs.Store.Sound
import TagRank.Proofs.Service.Step
import TagRank.Proofs.Service.Reached
import TagRank.Proofs.Service.Report
import TagRank.Proofs.Service.Parallel
import TagRank.Proofs.Service.Afresh
import TagRank.Proofs.Service.Others
import TagRank.Proofs.Service.Rebuild
import TagRank.Proofs.Service.Anchored
import TagRank.Proofs.Service.Labelled
import TagRank.Proofs.Scalar
import TagRank.Proofs.Ranking.View
import TagRank.Proofs.Ranking.Kernel
import TagRank.Proofs.Ranking.Proportion
import TagRank.Proofs.Ranking.Weight
import TagRank.Proofs.Service.Builds
import TagRank.Proofs.Service.Ready
import TagRank.Proofs.Service.Answer
import TagRank.Proofs.Service.Select
import TagRank.Proofs.Key
import TagRank.Proofs.Tag
import TagRank.Proofs.Aggregation.Run
import TagRank.Proofs.Service.Named
import TagRank.Proofs.Ranking.Balance
import TagRank.Proofs.Ranking.Contraction
import TagRank.Proofs.Text.Fold
import TagRank.Proofs.Text.Trim
import TagRank.Proofs.Stopword
import TagRank.Proofs.Service.Screen
import TagRank.Proofs.Command.Bare
import TagRank.Proofs.Service.Counters
import TagRank.Proofs.Service.Account
import TagRank.Proofs.Service.Settle
import TagRank.Proofs.Aggregation.Break
import TagRank.Proofs.Aggregation.Single
import TagRank.Proofs.Store.Load
import TagRank.Proofs.Service.Load
import TagRank.Proofs.Service.Choice
import TagRank.Proofs.Service.Strength
import TagRank.Proofs.Ranking.Renaming
import TagRank.Proofs.Service.Place
import TagRank.Proofs.Metrics.Sample
