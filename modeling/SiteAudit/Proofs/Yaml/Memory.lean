import SiteAudit.Proofs.Sorting
import SiteAudit.Yaml.Memory

/-!
# What does not depend on memory

Only sets lie in memory in an order of its own making: what is at the end of a path of keys is the
same in every memory (`Document.dig_arranged`). A process puts a set in the same order at every
reading unless a number in it is known by its address (`Document.arranged_congr`).
-/

namespace SiteAudit.Yaml

variable {d : Document} {m m' : Memory} {i j : Nat}

namespace Document

/-- The root is where it was. -/
@[simp] lemma root_arranged : (d.arranged m i).root = d.root := rfl

/-- A reading puts each collection in its order. -/
lemma collection?_arranged (v : Value) :
    (d.arranged m i).collection? v = (d.collection? v).map (·.arranged m i) := by
  cases v with
  | leaf l => rfl
  | collection node =>
    change ((d.collections.map (·.map (·.arranged m i)))[node]?).join = _
    rw [Array.getElem?_map]
    cases h : d.collections[node]? <;> simp [collection?, h]

/-- Mappings stay as they are. -/
@[simp] lemma entries?_arranged : (d.arranged m i).entries? = d.entries? := by
  funext v
  unfold entries?
  rw [collection?_arranged]
  cases d.collection? v with
  | none => rfl
  | some c => cases c <;> rfl

/-- So does what is one. -/
@[simp] lemma isMapping_arranged : (d.arranged m i).isMapping = d.isMapping := by
  unfold isMapping
  rw [entries?_arranged]

/-- So does what they have under a key. -/
@[simp] lemma get?_arranged : (d.arranged m i).get? = d.get? := by
  unfold get?
  rw [entries?_arranged]

/-- So does what is at the end of a path of keys. -/
@[simp] lemma dig_arranged : (d.arranged m i).dig = d.dig := by
  funext v keys
  induction keys generalizing v with
  | nil => rfl
  | cons key keys ih =>
    unfold dig
    rw [get?_arranged]
    exact congrArg _ (funext ih)

/-- No member of a set is known by its address. -/
def Settled (d : Document) : Prop :=
  ∀ v members, d.collection? v = some (.set members) →
    ∀ member ∈ members, ∀ node, member.atom ≠ .nan (some node)

end Document

namespace Memory

/-- Other atoms are known by their value. -/
lemma handle_eq {a : Atom} (h : ∀ node, a ≠ .nan (some node)) : m.handle i a = .value a := by
  unfold handle
  split
  · exact absurd rfl (h _)
  · rfl

/-- Members that are known by their value lie in one order at all readings. -/
lemma arrange_congr {members : List Leaf} (hplace : m.place = m'.place)
    (h : ∀ member ∈ members, ∀ node, member.atom ≠ .nan (some node)) :
    m.arrange i members = m'.arrange j members := by
  have hhandle : ∀ member ∈ members, m.handle i member.atom = m'.handle j member.atom :=
    fun member hmember => (handle_eq (h member hmember)).trans (handle_eq (h member hmember)).symm
  refine sortBy_congr fun a ha b hb => decide_eq_decide.2 ?_
  beta_reduce
  rw [List.map_congr_left hhandle, hhandle a ha, hhandle b hb, hplace]

end Memory

/-- A document without members that are known by their address is left in one order by all readings
of a process. -/
lemma Document.arranged_congr (hplace : m.place = m'.place) (hd : d.Settled) :
    d.arranged m i = d.arranged m' j := by
  unfold arranged
  congr 1
  refine Array.map_congr_left fun c hc => ?_
  obtain ⟨node, hnode, hget⟩ := Array.getElem_of_mem hc
  cases c with
  | none => rfl
  | some c =>
    cases c with
    | set members =>
      refine congrArg (fun members => some (Collection.set members))
        (Memory.arrange_congr hplace ?_)
      refine hd (.collection node) members ?_
      change (d.collections[node]?).join = _
      rw [Array.getElem?_eq_getElem hnode, hget, Option.join_some]
    | sequence _ => rfl
    | pairs _ => rfl
    | mapping _ => rfl

end SiteAudit.Yaml
