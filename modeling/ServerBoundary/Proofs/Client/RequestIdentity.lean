import ServerBoundary.Client.Exchange
import ServerBoundary.Proofs.Client.LiveEntry
import ServerBoundary.Proofs.Client.ReplyCodec
import ServerBoundary.Proofs.Client.RequestPath
import ServerBoundary.Proofs.Json.Text

/-!
# A request tells what was asked for

Requests of three shapes share the addresses of a server: those without parameters, those with a
query behind the address, and those with a value as their body. Method, address and body together
tell the path and the parameters, as long as no path has a question mark in it.

> `request_determines_what_was_asked`: two requests are equal only if their paths are equal and
> their parameters are.

> `question_mark_in_path_is_ambiguous`: with a question mark in a path this fails.

Each step from the path and the parameters to the request can be undone: the marks of the path
(`RscPath.decode_encode`), the doubled dollar signs of the value (`encodeValue_inj`) and its text
(`Json.toBytes_inj`). The query is what stands behind the first question mark of the address that is
not in its base (`query_inj`).
-/

namespace ServerBoundary

namespace Json

mutual
/-- Without values to put in the place of texts, a value stays as it is. -/
theorem substitute_none : ∀ v : Json, v.substitute (fun _ => none) = v
  | null => rfl
  | bool _ => rfl
  | number _ => rfl
  | string _ => rfl
  | array items => congrArg array (substituteItems_none items)
  | object fields => congrArg object (substituteFields_none fields)
theorem substituteItems_none : ∀ items, substituteItems (fun _ => none) items = items
  | [] => rfl
  | v :: vs => by rw [substituteItems, substitute_none v, substituteItems_none vs]
theorem substituteFields_none : ∀ fields, substituteFields (fun _ => none) fields = fields
  | [] => rfl
  | (k, v) :: fs => by rw [substituteFields, substitute_none v, substituteFields_none fs]
end

end Json

namespace Client

/-! ## Bodies -/

mutual
/-- Writing a value leaves its doubles as they are. -/
theorem isCanonical_encodeValue (refs : ReferenceSet) :
    ∀ v, (encodeValue refs v).isCanonical = v.isCanonical
  | .null => rfl
  | .bool _ => rfl
  | .number _ => rfl
  | .string _ => rfl
  | .array items => canonicalItems_encodeItems refs items
  | .object fields => canonicalFields_encodeFields refs fields
theorem canonicalItems_encodeItems (refs : ReferenceSet) :
    ∀ items, Json.canonicalItems (encodeItems refs items) = Json.canonicalItems items
  | [] => rfl
  | v :: vs => by
    rw [encodeItems, Json.canonicalItems, Json.canonicalItems, isCanonical_encodeValue refs v,
      canonicalItems_encodeItems refs vs]
theorem canonicalFields_encodeFields (refs : ReferenceSet) :
    ∀ fields, Json.canonicalFields (encodeFields refs fields) = Json.canonicalFields fields
  | [] => rfl
  | (k, v) :: fs => by
    rw [encodeFields, Json.canonicalFields, Json.canonicalFields, isCanonical_encodeValue refs v,
      canonicalFields_encodeFields refs fs]
end

/-- No text refers to a value of the empty set. -/
theorem ReferenceSet.find?_empty : ({} : ReferenceSet).find? = fun _ => none := by
  funext text
  refine Option.eq_none_iff_forall_not_mem.mpr fun v hv => ?_
  obtain ⟨_, _, -, -, hvalue⟩ := find?_eq_some_iff.mp hv
  cases hvalue

/-- Two values that are written in the same way are equal, if no text refers to a value. -/
theorem encodeValue_inj {v w : Json} (h : encodeValue {} v = encodeValue {} w) : v = w := by
  have hread : ∀ u, decodeValue {} (encodeValue {} u) = u := fun u => by
    rw [decodeValue_encodeValue (fun _ _ hfound => hfound), ReferenceSet.find?_empty,
      Json.substitute_none]
  rw [← hread v, h, hread w]

/-- Two values with the same body are equal. -/
theorem encodeReply_inj {v w : Json} (hv : v.isCanonical = true) (hw : w.isCanonical = true)
    (h : encodeReply {} v = encodeReply {} w) : v = w :=
  encodeValue_inj (Json.toBytes_inj (by rw [isCanonical_encodeValue, hv])
    (by rw [isCanonical_encodeValue, hw]) h)

/-! ## Addresses -/

namespace RscPath

/-- The encoding of a path has a question mark only if the path has one. -/
theorem not_mem_encode {path encoded : String} (h : encode path = .ok encoded)
    (hpath : '?' ∉ path.toList) : '?' ∉ encoded.toList := by
  rw [encode_of_isPlain (isPlain_of_encode h)] at h
  cases h
  rw [String.toList_ofList]
  intro hmem
  rcases List.mem_append.mp hmem with hmark | hending
  · exact hpath ((mem_mark (by decide)).mp hmark)
  · exact absurd hending (by decide)

/-- Two paths with one encoding are equal. -/
theorem encode_inj {path path' encoded : String} (h : encode path = .ok encoded)
    (h' : encode path' = .ok encoded) : path = path' :=
  Except.ok.inj ((decode_encode h).symm.trans (decode_encode h'))

end RscPath

section Addresses

variable {config : ClientConfig} {encoded encoded' text text' : String}

/-- The characters of an address behind the base. -/
theorem toList_url (config : ClientConfig) (encoded : String) : (config.url encoded).toList =
    (config.basePath ++ config.rscBase ++ "/").toList ++ encoded.toList := by
  rw [ClientConfig.url, String.toList_append]

theorem url_inj (h : config.url encoded = config.url encoded') : encoded = encoded' := by
  have hlist := congrArg String.toList h
  rw [toList_url, toList_url] at hlist
  exact String.toList_inj.mp (List.append_cancel_left hlist)

theorem toList_query (config : ClientConfig) (encoded text : String) :
    (config.url encoded ++ "?" ++ text).toList =
      (config.basePath ++ config.rscBase ++ "/").toList ++
        (encoded.toList ++ '?' :: text.toList) := by
  rw [String.toList_append, String.toList_append, toList_url, List.append_assoc, List.append_assoc]
  rfl

/-- An address with a query is none without one. -/
theorem url_ne_query (h : '?' ∉ encoded.toList) :
    config.url encoded ≠ config.url encoded' ++ "?" ++ text := by
  intro heq
  have hlist := congrArg String.toList heq
  rw [toList_url, toList_query] at hlist
  rw [List.append_cancel_left hlist] at h
  exact h (List.mem_append_right _ List.mem_cons_self)

/-- The query starts behind the first question mark. -/
theorem query_inj (h : '?' ∉ encoded.toList) (h' : '?' ∉ encoded'.toList)
    (heq : config.url encoded ++ "?" ++ text = config.url encoded' ++ "?" ++ text') :
    encoded = encoded' ∧ text = text' := by
  have hlist := congrArg String.toList heq
  rw [toList_query, toList_query] at hlist
  have hsplit : Text.splitFirst? '?' (encoded.toList ++ '?' :: text.toList) =
      some (encoded.toList, text.toList) := Text.splitFirst?_eq_some_iff.mpr ⟨rfl, h⟩
  have hsplit' : Text.splitFirst? '?' (encoded'.toList ++ '?' :: text'.toList) =
      some (encoded'.toList, text'.toList) := Text.splitFirst?_eq_some_iff.mpr ⟨rfl, h'⟩
  -- Both are the split of one text at its first question mark.
  rw [List.append_cancel_left hlist, hsplit', Option.some.injEq, Prod.mk.injEq] at hsplit
  exact ⟨String.toList_inj.mp hsplit.1.symm, String.toList_inj.mp hsplit.2.symm⟩

end Addresses

/-! ## Requests -/

/-- Whether parameters are ones that there can be, as all are that were read: no object has a key
twice, and all doubles are canonical. -/
def Params.isProper : Params → Bool
  | query _ => true
  | value v => v.isProper

/-- Whether parameters are ones that there can be, if there are any. -/
def properParams : Option Params → Bool
  | none => true
  | some p => p.isProper

theorem distinctParams_of_properParams {params : Option Params} (h : properParams params = true) :
    distinctParams params = true := by
  cases params with
  | none => rfl
  | some p =>
    cases p with
    | query text => rfl
    | value v => exact (Json.isProper_iff.mp h).1

/-- The request for an address with parameters. -/
def Request.forUrl (url : String) : Option Params → Request
  | none => get url
  | some (.query text) => get (url ++ "?" ++ text)
  | some (.value v) => post url (encodeReply {} v)

theorem Request.ofPath_of_encode {path encoded : String} (h : RscPath.encode path = .ok encoded)
    (config : ClientConfig) (params : Option Params) :
    ofPath config path params = .ok (forUrl (config.url encoded) params) := by
  rw [ofPath, h]
  cases params with
  | none => rfl
  | some p => cases p <;> rfl

/-- Two requests are equal only if they are of one shape, and then their parts are. -/
theorem Request.forUrl_inj {config : ClientConfig} {encoded encoded' : String}
    {params params' : Option Params} (h : '?' ∉ encoded.toList) (h' : '?' ∉ encoded'.toList)
    (hparams : properParams params = true) (hparams' : properParams params' = true)
    (heq : forUrl (config.url encoded) params = forUrl (config.url encoded') params') :
    encoded = encoded' ∧ params = params' := by
  -- The method sets the requests with a body apart, and a question mark those with a query.
  cases params with
  | none =>
    cases params' with
    | none => exact ⟨url_inj (congrArg url heq), rfl⟩
    | some p' =>
      cases p' with
      | query text' => exact absurd (congrArg url heq) (url_ne_query h)
      | value v' => cases congrArg method heq
  | some p =>
    cases p with
    | query text =>
      cases params' with
      | none => exact absurd (congrArg url heq).symm (url_ne_query h')
      | some p' =>
        cases p' with
        | query text' =>
          obtain ⟨hencoded, htext⟩ := query_inj h h' (congrArg url heq)
          exact ⟨hencoded, by rw [htext]⟩
        | value v' => cases congrArg method heq
    | value v =>
      cases params' with
      | none => cases congrArg method heq
      | some p' =>
        cases p' with
        | query text' => cases congrArg method heq
        | value v' =>
          have hv : v.isCanonical = true := (Json.isProper_iff.mp hparams).2
          have hv' : v'.isCanonical = true := (Json.isProper_iff.mp hparams').2
          have hbody : encodeReply {} v = encodeReply {} v' := Option.some.inj (congrArg body heq)
          exact ⟨url_inj (congrArg url heq), by rw [encodeReply_inj hv hv' hbody]⟩

/-- **A request tells what was asked for:** the path and the parameters. -/
theorem request_determines_what_was_asked (config : ClientConfig)
    {path path' encoded encoded' : String} {params params' : Option Params}
    (hencode : RscPath.encode path = .ok encoded) (hencode' : RscPath.encode path' = .ok encoded')
    (hpath : '?' ∉ path.toList) (hpath' : '?' ∉ path'.toList)
    (hparams : properParams params = true) (hparams' : properParams params' = true) :
    ∃ r r', Request.ofPath config path params = .ok r ∧
      Request.ofPath config path' params' = .ok r' ∧
      (r.method = r'.method → r.url = r'.url → r.body = r'.body →
        path = path' ∧ params = params' ∧ sameParams params params' = true) := by
  refine ⟨_, _, Request.ofPath_of_encode hencode config params,
    Request.ofPath_of_encode hencode' config params', fun hmethod hurl hbody => ?_⟩
  obtain ⟨rfl, rfl⟩ := Request.forUrl_inj (RscPath.not_mem_encode hencode hpath)
    (RscPath.not_mem_encode hencode' hpath') hparams hparams' (by
      rw [Request.mk.injEq]
      exact ⟨hmethod, hurl, hbody⟩)
  exact ⟨RscPath.encode_inj hencode hencode', rfl,
    sameParams_refl (distinctParams_of_properParams hparams)⟩

/-- The text `$T0` in a list is told from `$$T0`. -/
theorem dollar_signs_are_told_apart :
    RscPath.encode "a" = .ok "a.txt" ∧
    ∃ r r', Request.ofPath {} "a" (some (.value (.array [.string "$T0"]))) = .ok r ∧
      Request.ofPath {} "a" (some (.value (.array [.string "$$T0"]))) = .ok r' ∧ r ≠ r' := by
  have hencode : RscPath.encode "a" = .ok "a.txt" := rfl
  have hpath : '?' ∉ "a".toList := by decide
  have hparams : properParams (some (.value (.array [.string "$T0"]))) = true := by decide
  have hparams' : properParams (some (.value (.array [.string "$$T0"]))) = true := by decide
  obtain ⟨r, r', hr, hr', h⟩ :=
    request_determines_what_was_asked {} hencode hencode hpath hpath hparams hparams'
  refine ⟨hencode, r, r', hr, hr', fun heq => ?_⟩
  have hsame := (h (by rw [heq]) (by rw [heq]) (by rw [heq])).2.2
  exact absurd hsame (by decide)

/-- A path with a question mark in it is taken for another path with a query. -/
theorem question_mark_in_path_is_ambiguous (config : ClientConfig) :
    Request.ofPath config "a.txt?b" none =
      Request.ofPath config "a" (some (.query "b.txt")) := by
  have hencode : RscPath.encode "a.txt?b" = .ok "a.txt?b.txt" := rfl
  have hencode' : RscPath.encode "a" = .ok "a.txt" := rfl
  have hquery : config.url "a.txt?b.txt" = config.url "a.txt" ++ "?" ++ "b.txt" := by
    refine String.toList_inj.mp ?_
    rw [toList_url, toList_query]
    rfl
  rw [Request.ofPath_of_encode hencode, Request.ofPath_of_encode hencode', Request.forUrl,
    Request.forUrl, hquery]

end Client

end ServerBoundary
