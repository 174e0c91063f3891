import ProvenoOracle.Rust.Run
import ProvenoOracle.Rust.Str
import ProvenoOracle.Rust.Utf8
import ProvenoOracle.Rust.ParseInt
import ProvenoOracle.Effect.Fallible
import ProvenoOracle.Effect.Owned
import ProvenoOracle.Effect.Script
import ProvenoOracle.Effect.Runs
import ProvenoOracle.Effect.Guarded
import ProvenoOracle.Effect.Pool
import ProvenoOracle.Effect.Channel
import ProvenoOracle.Effect.Interact
import ProvenoOracle.Effect.Timers
import ProvenoOracle.Codec.BigEndian
import ProvenoOracle.Codec.SelfDelimiting
import ProvenoOracle.Codec.Delimited
import ProvenoOracle.Codec.CodedMap
import ProvenoOracle.Codec.Der
import ProvenoOracle.Codec.TlvList
import ProvenoOracle.Codec.Split
import ProvenoOracle.Codec.Trim
import ProvenoOracle.Codec.Incremental
import ProvenoOracle.Codec.Ring
import ProvenoOracle.Codec.DigitRuns
import ProvenoOracle.Codec.Double
import ProvenoOracle.Pki.Path
import ProvenoOracle.Tls.DerReader
import ProvenoOracle.Tls.LengthEncodings
import ProvenoOracle.Tls.AnchorReader
import ProvenoOracle.Tls.X509
import ProvenoOracle.Tls.Signature
import ProvenoOracle.Tls.Hostname
import ProvenoOracle.Tls.Chain
import ProvenoOracle.Tls.ConcreteCrates
import ProvenoOracle.Tls.Forgery
import ProvenoOracle.Tls.RootOmission
import ProvenoOracle.Tls.Trust
import ProvenoOracle.Tls.Schemes
import ProvenoOracle.Tls.SignedBytes
import ProvenoOracle.Tls.NoPanic
import ProvenoOracle.Tls.SanSearch
import ProvenoOracle.Tls.Attestation
import ProvenoOracle.Tls.KeyCommitment
import ProvenoOracle.Tls.Encoding
import ProvenoOracle.Tls.Labels
import ProvenoOracle.Tls.NarrowTarget
import ProvenoOracle.Tls.ReaderAgreement
import ProvenoOracle.Tls.Prehash
import ProvenoOracle.Tls.Verdict
import ProvenoOracle.Tools.KeyValue
import ProvenoOracle.Tools.HttpBody
import ProvenoOracle.Prove.Crates
import ProvenoOracle.Prove.Artifacts
import ProvenoOracle.Prove.Pipeline
import ProvenoOracle.Prove.ConcreteRun
import ProvenoOracle.Prove.PolicyCommitment
import ProvenoOracle.Prove.PolicyFile
import ProvenoOracle.Prove.ProofFiles
import ProvenoOracle.Prove.ReplayLimits
import ProvenoOracle.Prove.TapeHash
import ProvenoOracle.Prove.Compile
import ProvenoOracle.Prove.RetryLoop
import ProvenoOracle.Prove.OutputHash
import ProvenoOracle.Prove.Fences
import ProvenoOracle.Prove.Client
import ProvenoOracle.Prove.Batch
import ProvenoOracle.Prove.Prompt
import ProvenoOracle.Tools.LiveHost
import ProvenoOracle.Tools.Descriptions
import ProvenoOracle.Prove.Main
import ProvenoOracle.Examples.Window
import ProvenoOracle.Examples.Prices
import ProvenoOracle.Demo.JsonValue
import ProvenoOracle.Demo.Words
import ProvenoOracle.Demo.OnChain
import ProvenoOracle.Demo.Runner
import ProvenoOracle.Demo.Page
import ProvenoOracle.Demo.WordSyntax
import ProvenoOracle.Demo.EventStream
import ProvenoOracle.Demo.Verdict
import ProvenoOracle.Demo.DeployLog
import ProvenoOracle.Demo.Server
import ProvenoOracle.Demo.Shown
import ProvenoOracle.Demo.PageTimers
import ProvenoOracle.Demo.PageRuns
import ProvenoOracle.Demo.Startup
