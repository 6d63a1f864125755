import SessionServer.Dispatch.AllowedStates
import SessionServer.Dispatch.Procedure

/-!
Contract: which handler serves which code.

Owns:
- `Route`, a handler under a code with the states that may reach it, and `Provider`, a named group
  of routes with hooks for the start and the end of the server;
- `Table`, assembled step by step before the server starts. A code that is already taken stops the
  assembly with an error that names both providers.
-/

namespace SessionServer

/-- What serves a request. -/
abbrev Handler (μ : Type) := Request → Procedure μ

structure Route (μ : Type) where
  code : Code
  allowed : AllowedStates
  handler : Handler μ

/-- A named group of routes. -/
structure Provider (μ : Type) where
  name : String
  routes : List (Route μ)
  /-- Followed once before connections are accepted. -/
  init : Procedure μ := .done
  /-- Followed once when the server stops. -/
  destroy : Procedure μ := .done

namespace Route

def zoom {μ ν : Type} (part : ν → μ) (withPart : ν → μ → ν) (route : Route μ) : Route ν where
  code := route.code
  allowed := route.allowed
  handler request := (route.handler request).zoom part withPart

end Route

namespace Provider

/-- The same provider on a larger memory. -/
def zoom {μ ν : Type} (part : ν → μ) (withPart : ν → μ → ν) (provider : Provider μ) :
    Provider ν where
  name := provider.name
  routes := provider.routes.map (Route.zoom part withPart)
  init := provider.init.zoom part withPart
  destroy := provider.destroy.zoom part withPart

end Provider

/-- A route with the name of the provider it came from. -/
structure Entry (μ : Type) where
  code : Code
  allowed : AllowedStates
  provider : String
  handler : Handler μ

/-- Why a server could not be assembled or started. -/
inductive DispatchError where
  | duplicateCode (code : Code) (existing provider : String)
  | initFailed (provider reason : String)
deriving DecidableEq, Repr

namespace DispatchError

def message : DispatchError → String
  | .duplicateCode code existing provider =>
      "protocol code " ++ toString code.toInt ++ " registered by both `" ++ existing ++ "` and `" ++
        provider ++ "`"
  | .initFailed provider reason =>
      "provider `" ++ provider ++ "` failed to initialise: " ++ reason

end DispatchError

/-- The entries of all codes and the providers in the order of their registration. -/
structure Table (μ : Type) where
  entries : OrderedMap Code (Entry μ) := .empty
  providers : List (Provider μ) := []

namespace Table

variable {μ : Type}

def empty : Table μ := {}

def get? (table : Table μ) (code : Code) : Option (Entry μ) := table.entries.get? code

def codes (table : Table μ) : List Code := table.entries.keys

def size (table : Table μ) : Nat := table.entries.size

def isEmpty (table : Table μ) : Bool := table.entries.isEmpty

/-! ## Assembly -/

/-- A step of the assembly: a whole provider, or one route under the name of a provider. -/
inductive Step (μ : Type) where
  | provider (provider : Provider μ)
  | route (provider : String) (route : Route μ)

/-- Adds a route under the name of its provider. -/
def addRoute (table : Table μ) (provider : String) (route : Route μ) :
    Except DispatchError (Table μ) :=
  match table.get? route.code with
  | some existing => .error (.duplicateCode route.code existing.provider provider)
  | none =>
      .ok
        { table with
          entries :=
            table.entries.insert route.code
              ⟨route.code, route.allowed, provider, route.handler⟩ }

def addRoutes (table : Table μ) (provider : String) :
    List (Route μ) → Except DispatchError (Table μ)
  | [] => .ok table
  | route :: rest => do
      let table ← table.addRoute provider route
      table.addRoutes provider rest

def addProvider (table : Table μ) (provider : Provider μ) : Except DispatchError (Table μ) := do
  let table ← table.addRoutes provider.name provider.routes
  .ok { table with providers := table.providers ++ [provider] }

def addStep (table : Table μ) : Step μ → Except DispatchError (Table μ)
  | .provider provider => table.addProvider provider
  | .route provider route => table.addRoute provider route

/-- Carries out steps one after another up to the first error. -/
def addSteps (table : Table μ) : List (Step μ) → Except DispatchError (Table μ)
  | [] => .ok table
  | step :: rest => do
      let table ← table.addStep step
      table.addSteps rest

def build (steps : List (Step μ)) : Except DispatchError (Table μ) := empty.addSteps steps

def ofProviders (providers : List (Provider μ)) : Except DispatchError (Table μ) :=
  build (providers.map .provider)

end Table

end SessionServer
