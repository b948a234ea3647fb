import AppTopology.Entity.Build
import AppTopology.Store

namespace AppTopology.Fixture

def invoiceType : ChannelType :=
  .named "Invoice"
    "\x7b\"type\":\"object\",\"properties\":\x7b\"amount\":\x7b\"type\":\"number\"\x7d\x7d\x7d"

def invoices : Channel := .named "invoices" "Invoice"

def printer : App :=
  let node : Node := { image := "registry.local/printer:1.0", replicas := 1 }
  ((App.named "printer").withInput "invoices").withNode (node.withVariable "FORMAT" "pdf")

def billing : App :=
  (((App.named "billing").withLeaf invoiceType).withLeaf invoices).withApp printer

def brokers : List String := ["memory", "kafka"]

def seededStore (supply : Supply) : Store × List Event :=
  let registry := ((Registry.build brokers none).toOption).getD {}
  (Store.empty registry supply, Registry.buildEvents brokers none ++ Store.emptyEvents supply)

def billingStore (supply : Supply) : Store × List Event :=
  let (store, events) := seededStore supply
  let outcome := store.mutate (.create "" (.app billing)) {}
  (outcome.store, events ++ outcome.events)

end AppTopology.Fixture
