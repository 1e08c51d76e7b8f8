/-
# FilterQuery.Proofs.Resolve.Secrecy -- what the access lists deny does not show

Two schemas that say the same of all that the access lists allow may say anything of the rest:
that an attribute is there or not, that it is a scalar or leads to an entity, that it has this
type or that. No filter tells them apart (`shows_eq_of_agreeOn`). It comes to the same condition
or to the same failure under both, and the storage layer is handed the same leaves in the same
order, so a builder that keeps a record learns no more than its caller.

The reason is the order of the checks within a step: the schema is asked only for what has been
allowed, so two resolvers without memories follow one and the same plain resolver.
-/

import FilterQuery.Expression
import FilterQuery.Proofs.Resolve.Views

namespace FilterQuery

/-- Two describers say the same of all that the access lists allow. -/
def AccessLists.AgreeOn (l : AccessLists) (d d' : Describer) : Prop :=
  ∀ entity name, l.allows entity name = true → d entity name = d' entity name

namespace Resolver

open Run

variable {C : Type} {r : Resolver C}

/-- Without anything remembered, what is seen is what is described. -/
theorem sees_of_fresh {t : Trace} (ht : r.cached = true → t.cache = .empty)
    (entity name : String) : r.sees t entity name = r.describer entity name := by
  rw [sees]
  cases hcached : r.cached with
  | false => rfl
  | true =>
    rw [ht hcached]
    rfl

/-- Denied attributes do not leak. Under two describers that agree on what the access lists allow,
a filter that is resolved without anything remembered comes to the same condition or to the same
failure, and hands over the same leaves. -/
theorem shows_eq_of_agreeOn (settings : Settings C) (builder : ConditionBuilder C)
    {d d' : Describer} (hd : settings.access.AgreeOn d d') {cached cached' : Bool}
    {k k' : SchemaCache} (hk : cached = true → k = .empty) (hk' : cached' = true → k' = .empty)
    (n : Node) (entity : String) :
    shows ⟨settings, d, cached, builder⟩ { cache := k } n entity =
      shows ⟨settings, d', cached', builder⟩ { cache := k' } n entity := by
  -- what both of them see where they may look is what the first describer says
  have hhere : Steady ⟨settings, d, cached, builder⟩ d { cache := k } := by
    intro entity name _
    exact sees_of_fresh hk entity name
  have hthere : Steady ⟨settings, d', cached', builder⟩ d { cache := k' } := by
    intro entity name hallows
    rw [sees_of_fresh hk' entity name, hd entity name hallows]
  rw [shows_eq_plain hhere, shows_eq_plain hthere]
  rfl

/-- Settings that admit nothing of an address but its city. -/
def guarded : Settings Expression := { access := AccessLists.whitelist {} "Address" ["city"] }

/-- Addresses with a city and perhaps a secret, and entities that all have an address. -/
def addresses (secret : Option Attribute) : Describer := fun entity name =>
  if entity = "Address" ∧ name = "secret" then secret
  else if name = "address" then some (.embedded "address" "Address")
  else some (.basic name .string)

/-- A filter that asks for the city and for the secret of an address, and for what lies behind the
secret. -/
def prying : Node :=
  .logical .and .and
    [.comparison ⟨⟨"==", [], false⟩, "address.city", ["Oslo"]⟩,
      .comparison ⟨⟨"==", [], false⟩, "address.secret.pin", ["1"]⟩]

theorem agreeOn_addresses (secret secret' : Option Attribute) :
    guarded.access.AgreeOn (addresses secret) (addresses secret') := by
  intro entity name hallows
  by_cases hsecret : entity = "Address" ∧ name = "secret"
  · obtain ⟨rfl, rfl⟩ := hsecret
    exact absurd hallows (by decide)
  · rw [addresses, addresses, if_neg hsecret, if_neg hsecret]

theorem shows_eq_of_agreeOn_addresses :
    addresses (some (.embedded "secret" "Vault")) "Address" "secret" ≠
        addresses none "Address" "secret" ∧
      guarded.access.AgreeOn (addresses (some (.embedded "secret" "Vault"))) (addresses none) ∧
      (true = true → SchemaCache.empty = .empty) ∧ (false = true → SchemaCache.empty = .empty) ∧
      shows ⟨guarded, addresses (some (.embedded "secret" "Vault")), true, Expression.builder⟩ {}
          prying "Person" =
        shows ⟨guarded, addresses none, false, Expression.builder⟩ {} prying "Person" := by
  have hagree := agreeOn_addresses (some (.embedded "secret" "Vault")) none
  have hempty : ∀ b : Bool, b = true → SchemaCache.empty = .empty := fun _ _ => rfl
  exact ⟨by decide, hagree, hempty true, hempty false,
    shows_eq_of_agreeOn guarded Expression.builder hagree (hempty true) (hempty false) prying
      "Person"⟩

end Resolver

end FilterQuery
