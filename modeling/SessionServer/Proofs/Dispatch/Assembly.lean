import SessionServer.Proofs.Dispatch.Registration

/-!
Contract: what an assembled table serves.

Owns:
- `Table.offers`, the entries that a list of providers brings along, in order;
- the proof that an assembled table has, under every code, the first entry offered for it;
- `Table.withHandler`, a table in which one code is served by another handler.
-/

namespace SessionServer

variable {μ : Type}

namespace Table

/-- The entries of a list of providers. -/
def offers (providers : List (Provider μ)) : List (Entry μ) :=
  providers.flatMap fun provider => provider.routes.map fun route => route.entry provider.name

theorem registrations_map_provider (providers : List (Provider μ)) :
    registrations (providers.map .provider) = offers providers := by
  rw [registrations, List.flatMap_map]
  rfl

/-- Under every code an assembled table has the first entry that is offered for it. -/
theorem ofProviders_spec {providers : List (Provider μ)} {table : Table μ}
    (made : ofProviders providers = .ok table) :
    table.providers = providers ∧ ∀ code, table.get? code = offer? (offers providers) code := by
  obtain ⟨taken, holds, rfl⟩ := exists_holds_of_build made
  refine ⟨?_, fun code => ?_⟩
  · rw [List.filterMap_map]
    exact List.filterMap_some
  · rw [← registrations_map_provider]
    exact holds.get?_eq code

/-! ## Exchanging a handler -/

/-- The same table with another handler behind a code. -/
def withHandler (table : Table μ) (code : Code) (handler : Handler μ) : Table μ :=
  { table with
    entries := table.entries.mapValues fun served entry =>
      if served = code then { entry with handler } else entry }

theorem get?_withHandler (table : Table μ) (code : Code) (handler : Handler μ) (served : Code) :
    (table.withHandler code handler).get? served =
      (table.get? served).map fun entry =>
        if served = code then { entry with handler } else entry :=
  table.entries.get?_mapValues _ served

end Table

end SessionServer
