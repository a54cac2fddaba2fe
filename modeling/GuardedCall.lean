import GuardedCall.Adapter.ByDocument
import GuardedCall.Adapter.ByType
import GuardedCall.Adapter.Inspection
import GuardedCall.Adapter.Passthrough
import GuardedCall.Client.Basic
import GuardedCall.Log.Arguments
import GuardedCall.Log.Filter
import GuardedCall.Registry.Directory
import GuardedCall.Sample.Catalog
import GuardedCall.Typed.Event
import GuardedCall.Typed.Records
import GuardedCall.Proofs.Boundary
import GuardedCall.Proofs.SchemaCache
import GuardedCall.Proofs.Doubles
import GuardedCall.Proofs.ErrorRelay
import GuardedCall.Proofs.Loopback
import GuardedCall.Proofs.Paths
import GuardedCall.Proofs.Projection
import GuardedCall.Proofs.Resolution
import GuardedCall.Proofs.PathOrder
import GuardedCall.Proofs.Shapes
import GuardedCall.Proofs.Construction
import GuardedCall.Proofs.StubPaths
import GuardedCall.Proofs.Places
import GuardedCall.Proofs.Coverage
import GuardedCall.Proofs.Closing
import GuardedCall.Proofs.Keywords
import GuardedCall.Proofs.Tightening
import GuardedCall.Proofs.StrictMode
import GuardedCall.Proofs.PlainSchemas
import GuardedCall.Proofs.SchemaShape
import GuardedCall.Proofs.Composition
import GuardedCall.Proofs.Registration
import GuardedCall.Proofs.TypedCalls
import GuardedCall.Proofs.AdapterIndependence
import GuardedCall.Proofs.ObjectSchemas
import GuardedCall.Proofs.Compilation
import GuardedCall.Proofs.EntryPoints
import GuardedCall.Proofs.Loading
import GuardedCall.Proofs.Verdicts
import GuardedCall.Proofs.Coherence
import GuardedCall.Proofs.Extraction
import GuardedCall.Proofs.Profiles
import GuardedCall.Proofs.LogScope
