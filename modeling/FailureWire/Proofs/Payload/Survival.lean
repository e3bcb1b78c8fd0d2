import FailureWire.Payload.Codec
import FailureWire.Proofs.Payload.Copy
import FailureWire.Proofs.Payload.PlainText

/-!
# Values that survive

A value that a plain document spells, and in which nothing with an identity occurs twice, is encoded as the payload of
this document, which is decoded as the document again (`plain_values_survive`).
-/

namespace FailureWire

/-! ## Payloads of documents -/

namespace Payload

variable {host : Host} {d : Document} {withBytes : Bool}

def ofDocument (d : Document) : Payload := .inEncoding textEncoding (Utf8.encode (jsonOf d).chars)

/-- **A plain document is what its payload is decoded as.** -/
theorem decode_ofDocument (h : d.IsPlain host withBytes) (hsingular : d.singular.Nodup) :
    (Codec.standard host).decode (ofDocument d) = .ok (.value d) := by
  have hname : Utf8.decode (Utf8.encode textEncoding.toList) = textEncoding.toList :=
    Utf8.decode_encode (by decide)
  have hin : (ofDocument d).isIn textEncoding = true := decide_eq_true hname
  have htext : Utf8.decode (Utf8.encode (jsonOf d).chars) = (jsonOf d).chars := by
    refine Utf8.decode_encode ?_
    rw [jsonOf_of_isPlain h hsingular]
    exact fun hbom => absurd (Option.some.inj hbom) (by decide)
  have hdata : (ofDocument d).data = some (Utf8.encode (jsonOf d).chars) := rfl
  simp only [Codec.standard, Codec.ofFormat, hin, if_true, Codec.decodeData, hdata, TextFormat.annotated, htext,
    decodeText_chars h hsingular]
  rfl

end Payload

/-! ## Values -/

namespace Graph

variable {host : Host} {g : Graph} {d : Document} {v : Value} {ids : List ObjectId} {withBytes : Bool}

theorem encode_of_spells (hd : d.IsPlain host withBytes) (hv : g.Spells d v ids) (hids : ids.Nodup)
    (hpayload : g.isPayload v = false) : (Codec.standard host).encode g v = .ok (.payload (.ofDocument d)) := by
  simp only [Codec.standard, Codec.ofFormat, TextFormat.annotated, hpayload, (document_of_spells hv hids).1,
    Payload.encodeText, Document.unsafeKey?_eq_none hd]
  rfl

theorem bytesOf?_eq_none (hd : d.IsPlain host false) (hv : g.Spells d v ids) : g.bytesOf? v = none := by
  cases d with
  | undefined | null | bool _ | number _ | text _ | big _ =>
    obtain ⟨rfl, -⟩ := hv
    rfl
  | bytes data => cases hd
  | date _ | pattern _ _ | numbers _ _ | boxed _ =>
    obtain ⟨id, rfl, hn, -⟩ := hv
    simp only [bytesOf?, objectOf?, Value.id?, Option.bind_some, hn]
  | record _ | list _ | set _ | map _ =>
    obtain ⟨id, _, _, rfl, hn, -⟩ := hv
    simp only [bytesOf?, objectOf?, Value.id?, Option.bind_some, hn]
  | error _ _ _ _ =>
    obtain ⟨id, _, _, _, _, _, _, rfl, hn, -⟩ := hv
    simp only [bytesOf?, objectOf?, Value.id?, Option.bind_some, hn]
  | sparse _ | again _ | existing _ => exact hv.elim

theorem exists_spells_get? (name : String) : ∀ {fields : List (String × Document)} {values : Fields Value}
    {ids : List ObjectId}, Document.PlainFields host withBytes fields → g.SpellsFields fields values ids →
      ∀ w, values.get? name = some w → ∃ d ids, d.IsPlain host withBytes ∧ g.Spells d w ids
  | [], _, _, _, ⟨rfl, _⟩, w, hw => by cases hw
  | (key, d) :: rest, _, _, ⟨_, hd, hrest⟩, ⟨v, more, here, there, rfl, hv, hmore, _⟩, w, hw => by
    rw [Fields.get?_cons] at hw
    split at hw
    · cases hw
      exact ⟨d, here, hd, hv⟩
    · exact exists_spells_get? name hrest hmore w hw

theorem isPayload_eq_false (hd : d.IsPlain host false) (hv : g.Spells d v ids) : g.isPayload v = false := by
  have hdata : g.bytesOf? (g.read v "data") = none := by
    cases d with
    | undefined | null | bool _ | number _ | text _ | big _ =>
      obtain ⟨rfl, -⟩ := hv
      rfl
    | record fields =>
      obtain ⟨id, values, inner, rfl, hn, hparts, -⟩ := hv
      have hread : g.get? (.object id) "data" = values.get? "data" := by
        simp only [get?, objectOf?, Value.id?, Option.bind_some, hn]
      rw [read, hread]
      cases hget : values.get? "data" with
      | none => rfl
      | some w =>
        obtain ⟨e, ids, he, hw⟩ := exists_spells_get? "data" hd.2 hparts w hget
        exact bytesOf?_eq_none he hw
    | date _ | pattern _ _ | bytes _ | numbers _ _ | boxed _ =>
      obtain ⟨id, rfl, hn, -⟩ := hv
      simp only [read, get?, objectOf?, Value.id?, Option.bind_some, hn]
      rfl
    | list _ | set _ | map _ =>
      obtain ⟨id, _, _, rfl, hn, -⟩ := hv
      simp only [read, get?, objectOf?, Value.id?, Option.bind_some, hn]
      rfl
    | error _ _ _ _ =>
      obtain ⟨id, _, _, _, _, _, _, rfl, hn, -⟩ := hv
      simp only [read, get?, objectOf?, Value.id?, Option.bind_some, hn]
      rfl
    | sparse _ | again _ | existing _ => exact hv.elim
  simp only [isPayload, hdata, Option.isSome_none, Bool.false_and]

end Graph

/-- **A value built from its parts survives being encoded and decoded.** If a document spells the value, no object
occurs in it twice and no whole number of any size or not-a-number does, then the value is encoded as a payload that
is decoded as this document, and whatever the document is put into holds a value deeply equal to the first one. -/
theorem plain_values_survive {host : Host} {g : Graph} {d : Document} {v : Value} {ids : List ObjectId}
    (hd : d.IsPlain host false)
    (hv : g.Spells d v ids) (hids : ids.Nodup) (hsingular : d.singular.Nodup) :
    ∃ p, (Codec.standard host).encode g v = .ok (.payload p) ∧ (Codec.standard host).decode p = .ok (.value d) ∧
      ∀ before g' w, Graph.Placed before g' d w → g.Same g' v w := by
  refine ⟨.ofDocument d, Graph.encode_of_spells hd hv hids (Graph.isPayload_eq_false hd hv),
    Payload.decode_ofDocument hd hsingular, fun before g' w hw => ?_⟩
  obtain ⟨next, hspells⟩ := Graph.spells_of_placed hd hw
  exact Graph.same_of_spells hv hspells

/-- Details of an order under keys of every sort: a position, the empty one, and one with a dot and a backslash. -/
def orderDetails : Document :=
  .record
    [("0", .undefined), ("", .number .negativeZero), ("a.b\\c", .big 10), ("at", .date (.ofInt 1772366400000)),
      ("skus", .set [.text "sku-1", .number .nan, .list [.null]]),
      ("prices", .map [(.record [("sku", .text "sku-1")], .number 5), (.date (.ofInt 0), .record [])])]

theorem orderDetails_isPlain {host : Host} {withBytes : Bool} : orderDetails.IsPlain host withBytes := by
  have horder : Fields.ofList [("0", ()), ("", ()), ("a.b\\c", ()), ("at", ()), ("skus", ()), ("prices", ())] =
      [("0", ()), ("", ()), ("a.b\\c", ()), ("at", ()), ("skus", ()), ("prices", ())] := by decide
  have hskus : Document.PlainItems host withBytes [.text "sku-1", .number .nan, .list [.null]] :=
    ⟨trivial, trivial, ⟨by decide, trivial, trivial⟩, trivial⟩
  have hprices : Document.PlainEntries host withBytes
      [(.record [("sku", .text "sku-1")], .number 5), (.date (.ofInt 0), .record [])] :=
    ⟨⟨rfl, by decide, trivial, trivial⟩, trivial, ⟨0, by decide, rfl⟩, ⟨rfl, trivial⟩, trivial⟩
  refine ⟨Fields.ofList_of_names horder rfl, ?_⟩
  exact ⟨by decide, trivial, by decide, trivial, by decide, trivial, by decide, ⟨1772366400000, by decide, rfl⟩,
    by decide, ⟨by decide, rfl, hskus⟩, by decide, ⟨by decide, rfl, hprices⟩, trivial⟩

theorem plain_values_survive_orderDetails :
    ∃ p, Codec.standard.encode (Graph.empty.add orderDetails).1 (Graph.empty.add orderDetails).2 = .ok (.payload p) ∧
      Codec.standard.decode p = .ok (.value orderDetails) ∧ ∀ before g' w, Graph.Placed before g' orderDetails w →
        (Graph.empty.add orderDetails).1.Same g' (Graph.empty.add orderDetails).2 w := by
  have hplain : orderDetails.IsPlain .plain false := orderDetails_isPlain
  obtain ⟨next, hspells⟩ := Graph.spells_of_placed hplain (Graph.empty.placed_add orderDetails)
  exact plain_values_survive hplain hspells List.nodup_range' (by decide)

end FailureWire
