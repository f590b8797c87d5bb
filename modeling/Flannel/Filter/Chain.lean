import Mathlib.Data.BitVec

/-!
# Rule chains of a packet filter

A rule has criteria on the addresses and the mark of a packet and a verdict. The first rule whose
criteria all hold decides; what the text of a network denotes is left to the caller.
-/

namespace Flannel.Filter

universe u

structure Packet (α : Type u) where
  src : α
  dst : α
  mark : BitVec 32

inductive Criterion
  | source (negated : Bool) (cidr : String)
  | destination (negated : Bool) (cidr : String)
  /-- The mark under a mask. -/
  | mark (value mask : BitVec 32)
  deriving DecidableEq

inductive Verdict
  | leave
  | masquerade
  deriving DecidableEq

structure Rule where
  criteria : List Criterion
  verdict : Verdict
  deriving DecidableEq

def Rule.also (criterion : Criterion) (rule : Rule) : Rule :=
  { rule with criteria := criterion :: rule.criteria }

variable {α : Type u} (inCidr : String → α → Bool)

def Criterion.holds (packet : Packet α) : Criterion → Bool
  | .source negated cidr => inCidr cidr packet.src != negated
  | .destination negated cidr => inCidr cidr packet.dst != negated
  | .mark value mask => packet.mark &&& mask == value

def Rule.applies (packet : Packet α) (rule : Rule) : Bool :=
  rule.criteria.all (Criterion.holds inCidr packet)

def verdict (chain : List Rule) (packet : Packet α) : Option Verdict :=
  (chain.find? (Rule.applies inCidr packet)).map Rule.verdict

@[simp]
theorem verdict_nil (packet : Packet α) : verdict inCidr [] packet = none :=
  rfl

@[simp]
theorem verdict_cons (rule : Rule) (chain : List Rule) (packet : Packet α) :
    verdict inCidr (rule :: chain) packet =
      if rule.applies inCidr packet then some rule.verdict else verdict inCidr chain packet := by
  cases applies : rule.applies inCidr packet <;> simp [verdict, applies]

end Flannel.Filter
