import Iperf3.JsonHeap

/-!
# Refused requests for memory

The functions of the library go on when a request is refused, and nothing that
they do takes the record of it back.
-/

namespace Iperf3

namespace JsonHeap

open Fallible

variable {h h' : Heap} {a b k : ℕ} (m : Allocator)

def Lasting {α : Type} (x : HeapProgram α) : Prop :=
  ∀ h, h.refused = true → (x h).2.refused = true

namespace Lasting

variable {α β : Type} {x : HeapProgram α} {y : α → HeapProgram β}

theorem run {r : Option α} (hx : Lasting x) (hrun : x h = (r, h')) :
    h.refused = true → h'.refused = true := by
  intro hrefused
  have hlast := hx h hrefused
  rw [hrun] at hlast
  exact hlast

theorem pure {a : α} : Lasting (Pure.pure a : HeapProgram α) :=
  fun _ h => h

theorem giveUp : Lasting (Fallible.giveUp : HeapProgram α) :=
  fun _ h => h

theorem bind (hx : Lasting x) (hy : ∀ a, Lasting (y a)) : Lasting (x >>= y) := by
  intro h hrefused
  have hlast := hx h hrefused
  rcases hstep : x h with ⟨_ | a, t⟩
  · simpa [Bind.bind, hstep] using hlast
  · rw [hstep] at hlast
    rw [bind_of hstep]
    exact hy a t hlast

theorem provided {c : Prop} [Decidable c] {x : HeapProgram Unit} (hx : Lasting x) :
    Lasting (Fallible.provided c x) := by
  unfold Fallible.provided
  split_ifs
  · exact hx
  · exact pure

theorem whenGiven {o : Option α} {x : α → HeapProgram Unit} (hx : ∀ a, Lasting (x a)) :
    Lasting (Fallible.whenGiven o x) := by
  cases o with
  | none => exact pure
  | some a => exact hx a

theorem reading {x : Heap → HeapProgram α} (hx : ∀ h, Lasting (x h)) :
    Lasting (Fallible.reading x) :=
  fun h hrefused => hx h h hrefused

theorem refuse : Lasting refuse :=
  fun _ _ => rfl

theorem readNode : Lasting (readNode a) :=
  fun _ h => h

theorem readNext : Lasting (readNext a) :=
  fun _ h => h

theorem readPrev : Lasting (readPrev a) :=
  fun _ h => h

theorem writeNode {u : Node → Node} : Lasting (writeNode a u) := by
  intro h hrefused
  unfold JsonHeap.writeNode
  split <;> exact hrefused

theorem writeNext {target : Option ℕ} : Lasting (writeNext a target) :=
  fun _ h => h

theorem writePrev {target : Option ℕ} : Lasting (writePrev a target) :=
  fun _ h => h

theorem freeNode : Lasting (freeNode a) :=
  fun _ h => h

theorem freeText : Lasting (freeText k) :=
  fun _ h => h

theorem allocateNode {node : Node} : Lasting (allocateNode m node) := by
  intro h hrefused
  unfold JsonHeap.allocateNode
  split
  · rfl
  · exact hrefused

theorem strdup {s : Option CString} : Lasting (strdup m s) := by
  cases s with
  | none => exact pure
  | some s =>
      intro h hrefused
      unfold JsonHeap.strdup
      simp only [allocateText]
      split
      · rfl
      · exact hrefused

theorem deleteItems {fuel : ℕ} : ∀ {item : Option ℕ}, Lasting (deleteItems fuel item) := by
  induction fuel with
  | zero =>
      intro item
      cases item with
      | none => exact pure
      | some a => exact giveUp
  | succ fuel ih =>
      intro item
      cases item with
      | none => exact pure
      | some a =>
          exact readNode.bind fun node => readNext.bind fun next =>
            (provided ih).bind fun _ => (provided (whenGiven fun _ => freeText)).bind fun _ =>
            (provided (whenGiven fun _ => freeText)).bind fun _ => freeNode.bind fun _ => ih

theorem delete {item : Option ℕ} : Lasting (delete item) :=
  reading fun _ => deleteItems

theorem createString {s : Option CString} : Lasting (createString m s) := by
  apply (allocateNode m).bind
  intro item
  cases item with
  | none => exact pure
  | some a =>
      apply (strdup m).bind
      intro valuestring
      cases valuestring with
      | none => exact delete.bind fun _ => pure
      | some k => exact writeNode.bind fun _ => pure

theorem addItemToArray {item : Option ℕ} : Lasting (addItemToArray b item) := by
  cases item with
  | none => exact pure
  | some a =>
      simp only [JsonHeap.addItemToArray]
      split_ifs
      · exact pure
      · apply readNode.bind
        intro node
        split
        · exact writeNode.bind fun _ => writePrev.bind fun _ => writeNext.bind fun _ => pure
        · apply readPrev.bind
          intro last
          refine (whenGiven fun last => ?_).bind fun _ => pure
          exact (writeNext.bind fun _ => writePrev).bind fun _ => writePrev

theorem addItemToObject {s : CString} {item : Option ℕ} : Lasting (addItemToObject m b s item) := by
  cases item with
  | none => exact pure
  | some a =>
      simp only [JsonHeap.addItemToObject]
      split_ifs
      · exact pure
      · apply (strdup m).bind
        intro newKey
        cases newKey with
        | none => exact pure
        | some k =>
            exact readNode.bind fun node =>
              (provided (whenGiven fun _ => freeText)).bind fun _ =>
              writeNode.bind fun _ => addItemToArray

theorem addCreated {create : HeapProgram (Option ℕ)} {s : CString} (hcreate : Lasting create) :
    Lasting (addCreated m create b s) := by
  apply hcreate.bind
  intro item
  apply (addItemToObject m).bind
  intro added
  cases added with
  | true => exact pure
  | false => exact delete.bind fun _ => pure

theorem addItemReferenceToObject {s : CString} {item : Option ℕ} :
    Lasting (addItemReferenceToObject m b s item) := by
  cases item with
  | none => exact pure.bind fun _ => addItemToObject m
  | some r =>
      exact (readNode.bind fun _ => allocateNode m).bind fun _ => addItemToObject m

theorem readText : Lasting (readText k) :=
  fun _ h => h

theorem readString {pointer : Option ℕ} : Lasting (readString pointer) := by
  cases pointer with
  | none => exact pure
  | some k => exact readText

/-- Reading changes nothing; the three functions call each other with less fuel. -/
theorem readItems (fuel : ℕ) : (∀ a, Lasting (readItem fuel a)) ∧
    (∀ p, Lasting (readElements fuel p)) ∧ ∀ p, Lasting (readMembers fuel p) := by
  induction fuel with
  | zero =>
      refine ⟨fun a => ?_, fun p => ?_, fun p => ?_⟩
      · exact giveUp
      · cases p with
        | none => exact pure
        | some a => exact giveUp
      · cases p with
        | none => exact pure
        | some a => exact giveUp
  | succ fuel ih =>
      obtain ⟨hitem, helements, hmembers⟩ := ih
      refine ⟨fun a => ?_, fun p => ?_, fun p => ?_⟩
      · apply readNode.bind
        intro node
        cases node.kind with
        | string => exact readString.bind fun _ => pure
        | array => exact (helements _).bind fun _ => pure
        | object => exact (hmembers _).bind fun _ => pure
        | _ => exact pure
      · cases p with
        | none => exact pure
        | some a =>
            apply (hitem a).bind
            intro item
            cases item with
            | none => exact pure
            | some item =>
                exact readNext.bind fun next => (helements next).bind fun _ => pure
      · cases p with
        | none => exact pure
        | some a =>
            refine readNode.bind fun node => readString.bind fun name => (hitem a).bind ?_
            intro item
            cases item with
            | none => exact pure
            | some item =>
                exact readNext.bind fun next => (hmembers next).bind fun _ => pure

theorem print {format : Bool} {item : ℕ} : Lasting (print m format item) := by
  apply (reading fun h => (readItems _).1 item).bind
  intro value
  cases value with
  | none => exact pure
  | some value =>
      apply reading
      intro h
      split
      · exact strdup m (s := some _)
      · exact refuse
      · exact giveUp

end Lasting

end JsonHeap

end Iperf3
