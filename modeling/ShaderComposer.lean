import ShaderComposer.Command.FileTree
import ShaderComposer.Journal
import ShaderComposer.Main
import ShaderComposer.Proofs.BindingSlots
import ShaderComposer.Proofs.BuildAcceptance
import ShaderComposer.Proofs.CallTargets
import ShaderComposer.Proofs.ChainBuilds
import ShaderComposer.Proofs.ChainRoundTrip
import ShaderComposer.Proofs.ChainThreading
import ShaderComposer.Proofs.CollisionFreedom
import ShaderComposer.Proofs.ContributedParts
import ShaderComposer.Proofs.DialectAgreement
import ShaderComposer.Proofs.DiscardedResults
import ShaderComposer.Proofs.FaultAttribution
import ShaderComposer.Proofs.FixedNames
import ShaderComposer.Proofs.Identifiers
import ShaderComposer.Proofs.IdentityPasses
import ShaderComposer.Proofs.Indentation
import ShaderComposer.Proofs.ListIndex
import ShaderComposer.Proofs.LiteralValue
import ShaderComposer.Proofs.NamingIndependence
import ShaderComposer.Proofs.OptionGrammar
import ShaderComposer.Proofs.ParameterNames
import ShaderComposer.Proofs.RepeatedVariables
import ShaderComposer.Proofs.RunEffects
import ShaderComposer.Proofs.Scoping
import ShaderComposer.Proofs.SelfContained
import ShaderComposer.Proofs.StackGrouping
import ShaderComposer.Proofs.StackNumbering
import ShaderComposer.Proofs.StructAgreement
import ShaderComposer.Proofs.WindowText
