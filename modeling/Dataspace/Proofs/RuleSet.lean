import Dataspace.Contract.Comparison
import Mathlib.Data.Char
import Mathlib.Data.Finset.Card
import Mathlib.Data.List.Lex
import Mathlib.Data.List.Sort

/-!
# Rule sets are sets

A contract is compared by its `Contract.ruleSet`, an ascending list of contents in which the
constraints are ascending lists again. This module says that such lists stand for sets at both
levels. What a rule says is `Rule.terms`, where the constraints are a finite set, and what a
contract says of use is the finite set `Contract.terms`; neither mentions an order.

* **`Ascending.ofList_eq_iff`** — ascending lists are equal exactly if they have the same members.
* **`Rule.content_eq_iff`** — rules have the same content exactly if they say the same.
* **`Contract.ruleSet_eq_iff`** — contracts have the same rule set exactly if they have the same
  terms.
* **`Contract.length_lacking_ruleSet`** — the contents that one rule set lacks are counted once
  each.
-/

namespace Dataspace

/-! ## Ascending lists -/

namespace Ascending

variable {α : Type}

/-- A strict order in which any two elements can be compared. -/
structure Order (lt : α → α → Bool) : Prop where
  irrefl : ∀ x, lt x x = false
  trans : ∀ {x y z}, lt x y = true → lt y z = true → lt x z = true
  connected : ∀ {x y}, lt x y = false → lt y x = false → x = y

/-- Elements are ordered by keys that tell them apart. -/
theorem Order.ofKey {β : Type} [LinearOrder β] {lt : α → α → Bool} (key : α → β)
    (hkey : Function.Injective key) (hlt : ∀ x y, lt x y = true ↔ key x < key y) : Order lt where
  irrefl x := Bool.eq_false_iff.2 fun h => lt_irrefl (key x) ((hlt x x).1 h)
  trans hxy hyz := (hlt _ _).2 (lt_trans ((hlt _ _).1 hxy) ((hlt _ _).1 hyz))
  connected {x y} hxy hyx := by
    have hle : ¬ key x < key y := fun h => Bool.eq_false_iff.1 hxy ((hlt x y).2 h)
    have hge : ¬ key y < key x := fun h => Bool.eq_false_iff.1 hyx ((hlt y x).2 h)
    exact hkey (le_antisymm (not_lt.1 hge) (not_lt.1 hle))

variable {lt : α → α → Bool} (order : Order lt)
include order

theorem mem_insert {x z : α} {xs : List α} : z ∈ insert lt x xs ↔ z = x ∨ z ∈ xs := by
  induction xs with
  | nil => exact List.mem_singleton.trans (or_iff_left List.not_mem_nil).symm
  | cons y r ih =>
    rw [insert]
    split
    · exact List.mem_cons
    · rename_i hxy
      split
      · rw [List.mem_cons, ih, List.mem_cons, or_left_comm]
      · -- neither comes before the other, so the element is there already
        rename_i hyx
        have heq : x = y := order.connected (Bool.eq_false_iff.2 hxy) (Bool.eq_false_iff.2 hyx)
        rw [heq, List.mem_cons, or_self_left]

theorem pairwise_insert (x : α) {xs : List α} (h : xs.Pairwise fun a b => lt a b = true) :
    (insert lt x xs).Pairwise fun a b => lt a b = true := by
  induction xs with
  | nil => exact List.pairwise_singleton _ x
  | cons y r ih =>
    obtain ⟨hy, hr⟩ := List.pairwise_cons.1 h
    rw [insert]
    split
    · rename_i hxy
      refine List.pairwise_cons.2 ⟨List.forall_mem_cons.2 ⟨hxy, fun z hz => ?_⟩, h⟩
      exact order.trans hxy (hy z hz)
    · split
      · rename_i hyx
        refine List.pairwise_cons.2 ⟨fun z hz => ?_, ih hr⟩
        rcases (mem_insert order).1 hz with rfl | hz
        · exact hyx
        · exact hy z hz
      · exact h

theorem mem_ofList {z : α} {xs : List α} : z ∈ ofList lt xs ↔ z ∈ xs := by
  induction xs with
  | nil => exact Iff.rfl
  | cons x xs ih => rw [ofList, List.foldr_cons, mem_insert order, ← ofList, ih, List.mem_cons]

theorem pairwise_ofList (xs : List α) : (ofList lt xs).Pairwise fun a b => lt a b = true := by
  induction xs with
  | nil => exact List.Pairwise.nil
  | cons x xs ih => exact pairwise_insert order x ih

theorem nodup_ofList (xs : List α) : (ofList lt xs).Nodup := by
  refine (pairwise_ofList order xs).imp fun {a b} hab heq => ?_
  rw [heq, order.irrefl b] at hab
  cases hab

/-- **Ascending lists are sets.** -/
theorem ofList_eq_iff {xs ys : List α} :
    ofList lt xs = ofList lt ys ↔ ∀ z, z ∈ xs ↔ z ∈ ys := by
  constructor
  · intro h z
    rw [← mem_ofList order, h, mem_ofList order]
  · intro h
    have hperm : (ofList lt xs).Perm (ofList lt ys) :=
      (List.perm_ext_iff_of_nodup (nodup_ofList order xs) (nodup_ofList order ys)).2 fun z => by
        rw [mem_ofList order, mem_ofList order, h z]
    -- of two elements that come before each other there are none
    refine hperm.eq_of_pairwise (fun a b _ _ hab hba => ?_) (pairwise_ofList order xs)
      (pairwise_ofList order ys)
    have hloop := order.trans hab hba
    rw [order.irrefl a] at hloop
    cases hloop

end Ascending

theorem order_textBefore : Ascending.Order textBefore :=
  .ofKey String.toList (fun _ _ h => String.toList_inj.1 h)
    fun a b => decide_eq_true_iff (p := a.toList < b.toList)

/-! ## Terms -/

/-- What a rule says: its type, action and target, and the set of its constraints. -/
abbrev Terms := RuleType × String × Option String × Finset String

namespace Content

theorem sortKey_injective : Function.Injective sortKey := by
  rintro ⟨type, action, target, constraints⟩ ⟨type', action', target', constraints'⟩ h
  simp only [sortKey, List.cons_append, List.nil_append, List.cons.injEq] at h
  obtain ⟨htype, haction, hflag, htarget, hconstraints⟩ := h
  have htype : type = type' := by
    revert htype
    cases type <;> cases type' <;> decide
  -- a target that is missing has a mark of its own, so that it differs from an empty one
  have htarget : target = target' := by
    cases target <;> cases target'
    · rfl
    · exact absurd hflag (by simp)
    · exact absurd hflag (by simp)
    · exact congrArg some (String.toList_inj.1 htarget)
  have hconstraints : constraints = constraints' :=
    List.map_injective_iff.2 (fun _ _ h => String.toList_inj.1 h) hconstraints
  rw [htype, String.toList_inj.1 haction, htarget, hconstraints]

theorem order_before : Ascending.Order before :=
  .ofKey sortKey sortKey_injective fun k l => decide_eq_true_iff (p := k.sortKey < l.sortKey)

def terms (c : Content) : Terms :=
  (c.type, c.action, c.target, c.constraints.toFinset)

end Content

namespace Rule

def terms (x : Rule) : Terms :=
  (x.type, x.action, x.target, x.constraints.toFinset)

/-- Type, action and target agree, and every constraint of one is a constraint of the other. -/
def SaysSame (x y : Rule) : Prop :=
  x.type = y.type ∧ x.action = y.action ∧ x.target = y.target ∧
    ∀ s, s ∈ x.constraints ↔ s ∈ y.constraints

variable {x y : Rule}

theorem terms_content (x : Rule) : x.content.terms = x.terms := by
  have hset : (Ascending.ofList textBefore x.constraints).toFinset = x.constraints.toFinset :=
    Finset.ext fun s => by
      rw [List.mem_toFinset, List.mem_toFinset, Ascending.mem_ofList order_textBefore]
  rw [content, Content.terms, hset]
  rfl

/-- Two rules have the same terms exactly if they say the same. -/
theorem terms_eq_iff : x.terms = y.terms ↔ x.SaysSame y := by
  simp only [terms, SaysSame, Prod.mk.injEq, Finset.ext_iff, List.mem_toFinset]

/-- **The content of a rule is what it says.** -/
theorem content_eq_iff : x.content = y.content ↔ x.terms = y.terms := by
  rw [terms_eq_iff, SaysSame, ← Ascending.ofList_eq_iff order_textBefore, content, content,
    Content.mk.injEq]

end Rule

namespace Contract

/-- What a contract says of use: the terms of its rules, whatever their order and number. -/
def terms (c : Contract) : Finset Terms :=
  (c.rules.map Rule.terms).toFinset

variable {c d : Contract}

theorem mem_terms {t : Terms} : t ∈ c.terms ↔ ∃ x ∈ c.rules, x.terms = t := by
  rw [terms, List.mem_toFinset, List.mem_map]

theorem mem_ruleSet {k : Content} : k ∈ c.ruleSet ↔ ∃ x ∈ c.rules, x.content = k := by
  rw [ruleSet, Ascending.mem_ofList Content.order_before, List.mem_map]

theorem nodup_ruleSet (c : Contract) : c.ruleSet.Nodup :=
  Ascending.nodup_ofList Content.order_before _

/-- Within rule sets, contents are told apart by what they say. -/
theorem eq_of_terms_eq {k l : Content} (hk : k ∈ c.ruleSet) (hl : l ∈ d.ruleSet)
    (h : k.terms = l.terms) : k = l := by
  obtain ⟨x, -, rfl⟩ := mem_ruleSet.1 hk
  obtain ⟨y, -, rfl⟩ := mem_ruleSet.1 hl
  rw [Rule.terms_content, Rule.terms_content] at h
  exact Rule.content_eq_iff.2 h

theorem terms_mem_iff {k : Content} (hk : k ∈ c.ruleSet) : k.terms ∈ d.terms ↔ k ∈ d.ruleSet := by
  obtain ⟨x, -, rfl⟩ := mem_ruleSet.1 hk
  rw [Rule.terms_content, mem_terms, mem_ruleSet]
  exact exists_congr fun y => and_congr_right fun _ => Rule.content_eq_iff.symm

theorem toFinset_ruleSet (c : Contract) : (c.ruleSet.map Content.terms).toFinset = c.terms := by
  ext t
  rw [List.mem_toFinset, List.mem_map, mem_terms]
  constructor
  · rintro ⟨k, hk, rfl⟩
    obtain ⟨x, hx, rfl⟩ := mem_ruleSet.1 hk
    exact ⟨x, hx, (Rule.terms_content x).symm⟩
  · rintro ⟨x, hx, rfl⟩
    exact ⟨x.content, mem_ruleSet.2 ⟨x, hx, rfl⟩, Rule.terms_content x⟩

theorem mem_ruleSet_of_terms_eq (h : c.terms = d.terms) {k : Content} (hk : k ∈ c.ruleSet) :
    k ∈ d.ruleSet :=
  (terms_mem_iff hk).1 (h ▸ (terms_mem_iff hk).2 hk)

/-- **Rule sets are equal exactly if the terms are.** -/
theorem ruleSet_eq_iff : c.ruleSet = d.ruleSet ↔ c.terms = d.terms := by
  constructor
  · intro h
    rw [← toFinset_ruleSet, h, toFinset_ruleSet]
  · intro h
    refine (Ascending.ofList_eq_iff Content.order_before).2 fun k => ?_
    have hmem : ∀ e : Contract, k ∈ e.rules.map Rule.content ↔ k ∈ e.ruleSet :=
      fun e => (Ascending.mem_ofList Content.order_before).symm
    rw [hmem, hmem]
    exact ⟨mem_ruleSet_of_terms_eq h, mem_ruleSet_of_terms_eq h.symm⟩

/-- **What a rule set lacks is counted by what it says.** -/
theorem length_lacking_ruleSet (c d : Contract) :
    (lacking c.ruleSet d.ruleSet).length = (c.terms \ d.terms).card := by
  have hset : ((lacking c.ruleSet d.ruleSet).map Content.terms).toFinset = c.terms \ d.terms := by
    ext t
    rw [← toFinset_ruleSet c, Finset.mem_sdiff, List.mem_toFinset, List.mem_toFinset, List.mem_map,
      List.mem_map]
    constructor
    · rintro ⟨k, hk, rfl⟩
      obtain ⟨hk, hlacks⟩ := List.mem_filter.1 hk
      exact ⟨⟨k, hk, rfl⟩, fun hmem => of_decide_eq_true hlacks ((terms_mem_iff hk).1 hmem)⟩
    · rintro ⟨⟨k, hk, rfl⟩, hlacks⟩
      refine ⟨k, List.mem_filter.2 ⟨hk, decide_eq_true fun hmem => hlacks ?_⟩, rfl⟩
      exact (terms_mem_iff hk).2 hmem
  have hnodup : ((lacking c.ruleSet d.ruleSet).map Content.terms).Nodup := by
    refine ((nodup_ruleSet c).filter _).map_on fun k hk l hl heq => ?_
    exact eq_of_terms_eq (List.mem_of_mem_filter hk) (List.mem_of_mem_filter hl) heq
  rw [← hset, List.toFinset_card_of_nodup hnodup, List.length_map]

end Contract

end Dataspace
