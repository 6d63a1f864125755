import SessionServer.Delivery.Line
import SessionServer.Main
import SessionServer.Proofs.Bundle.Authentication
import SessionServer.Proofs.Bundle.Economy
import SessionServer.Proofs.Bundle.Eviction
import SessionServer.Proofs.Bundle.Heartbeats
import SessionServer.Proofs.Cache.Durability
import SessionServer.Proofs.Delivery.Conservation
import SessionServer.Proofs.Scheduler.Obedience
import SessionServer.Proofs.Scheduler.Timetable
import SessionServer.Proofs.Wire.RoundTrip
import SessionServer.Proofs.Machine
import SessionServer.Proofs.Registry.Binding
import SessionServer.Proofs.Store.Refinement
import SessionServer.Provider.Script
import SessionServer.Scheduler.Rehearsal
import SessionServer.Store.Note
import SessionServer.Proofs.Registry.Lifecycle
import SessionServer.Proofs.Cache.Locality
import SessionServer.Proofs.Bundle.Commutation
import SessionServer.Proofs.Bundle.Isolation
import SessionServer.Proofs.Scheduler.Leash
import SessionServer.Proofs.Server.Acts
import SessionServer.Proofs.Server.Lifetimes
import SessionServer.Proofs.Store.FreshKeys
import SessionServer.Proofs.Bundle.Refusal
import SessionServer.Proofs.Network.Agreement
import SessionServer.Proofs.Delivery.Outfits
import SessionServer.Proofs.Store.Canonical
import SessionServer.Proofs.Store.Atomicity
import SessionServer.Proofs.Cache.Creation
import SessionServer.Proofs.Dispatch.Registration
import SessionServer.Proofs.Bundle.Balance
import SessionServer.Proofs.Delivery.Rhythm
import SessionServer.Proofs.Wire.Acceptance
import SessionServer.Proofs.Scheduler.Tracking
