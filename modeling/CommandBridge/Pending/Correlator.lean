import CommandBridge.Config.Reader
import CommandBridge.Pending.Table

/-!
# Correlators

A correlator brings completions together with the commands that wait for them.

* `Correlator` — its table, what statuses mean to it, and the default waiting time;
* `Correlator.ofConfig`, `Correlator.ofText` — the correlator that a configuration describes;
* `Correlator.listing` — the correlator as listings show it.

`of_ofConfig` says what a configured correlator is made of.
-/

namespace CommandBridge

/-- The pending commands and how their statuses are understood. -/
structure Correlator where
  table : PendingTable := {}
  statuses : StatusTable := StatusTable.published
  callTimeout : Option Duration := none

namespace Correlator

/-- The correlator that a configuration describes. -/
def ofConfig (config : Config) : Except ConfigError Correlator := do
  .ok { statuses := ← config.statusTable, callTimeout := config.callTimeout }

/-- The correlator that a configuration text describes; the default one without a text. -/
def ofText : Option String → Except ConfigError Correlator
  | some text => do ofConfig (← Config.ofJson text)
  | none => .ok {}

theorem of_ofConfig {config : Config} {c : Correlator} (h : ofConfig config = .ok c) :
    c.table = {} ∧ config.statusTable = .ok c.statuses := by
  unfold ofConfig at h
  cases ht : config.statusTable with
  | error e =>
    rw [ht] at h
    cases h
  | ok t =>
    rw [ht] at h
    cases h
    exact ⟨rfl, rfl⟩

/-- The correlator as listings show it. -/
def listing (c : Correlator) : String :=
  s!"Correlator \x7b pending: {c.table.size}, call_timeout: " ++
    Duration.listingOption c.callTimeout ++ ", .. \x7d"

end Correlator

end CommandBridge
