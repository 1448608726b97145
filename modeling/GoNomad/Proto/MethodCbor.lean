import GoNomad.Lib.Cbor
import GoNomad.Proto.Control

/-!
# How method values are written

A structure is written as a map from field names to values, in declaration
order, a list as an array.  An absent field that is skipped is not written.

* `registerParams_injective` — the parameters of a registration can be told from
  how they are written.
-/

namespace Proto.MethodCbor

open Cbor

def text (s : String) : List UInt8 := (Item.text s).encode

def uint (v : UInt64) : List UInt8 := (Item.uint v).encode

/-- A structure with its fields already written. -/
def struct (fields : List (String × List UInt8)) : List UInt8 :=
  Cbor.length 5 fields.length ++ fields.flatMap fun field => text field.1 ++ field.2

/-- The field of a value that may be absent. -/
def optional {α : Type} (name : String) (write : α → List UInt8) :
    Option α → List (String × List UInt8)
  | none => []
  | some a => [(name, write a)]

def registerParams (params : SysRegisterParams) : List UInt8 :=
  struct ([("device_name", text params.deviceName)] ++
    optional "device_model" text params.deviceModel ++ [("sas", text params.sas)])

def fsPathParams (params : FsPathParams) : List UInt8 := struct [("path", text params.path)]

def ptySpawnParams (params : PtySpawnParams) : List UInt8 :=
  struct (optional "cwd" text params.cwd ++ optional "shell" text params.shell ++
    [("cols", uint params.cols.toUInt64), ("rows", uint params.rows.toUInt64)])

def ptyInputParams (params : PtyInputParams) : List UInt8 :=
  struct [("pty_id", uint params.ptyId), ("data", text params.data)]

def ptyResizeParams (params : PtyResizeParams) : List UInt8 :=
  struct [("pty_id", uint params.ptyId), ("cols", uint params.cols.toUInt64),
    ("rows", uint params.rows.toUInt64)]

def ptyIdParams (params : PtyIdParams) : List UInt8 := struct [("pty_id", uint params.ptyId)]

def registerResult (result : SysRegisterResult) : List UInt8 :=
  struct [("device_id", text result.deviceId), ("capabilities", uint result.capabilities.bits.toUInt64)]

/-- What the parameters of a registration are written as. -/
def registerItems (params : SysRegisterParams) : List Item :=
  [.text "device_name", .text params.deviceName] ++
    (params.deviceModel.toList.flatMap fun model => [.text "device_model", .text model]) ++
      [.text "sas", .text params.sas]

theorem registerParams_eq (params : SysRegisterParams) :
    registerParams params = Cbor.length 5 (2 + params.deviceModel.toList.length) ++
      (registerItems params).flatMap Item.encode := by
  obtain ⟨name, model, sas⟩ := params
  cases model with
  | none => simp [registerParams, registerItems, struct, optional, text]
  | some model => simp [registerParams, registerItems, struct, optional, text]

/-- An item is no longer than what it is a part of. -/
theorem bounded_of_flatMap {items : List Item} {i : Item} (hi : i ∈ items)
    (h : (items.flatMap Item.encode).length ≤ u64Max) : i.Bounded := by
  obtain ⟨before, after, rfl⟩ := List.append_of_mem hi
  rw [List.flatMap_append, List.flatMap_cons, List.length_append, List.length_append] at h
  cases i with
  | bytes b =>
      rw [Item.encode, List.length_append] at h
      unfold Item.Bounded
      omega
  | text s =>
      rw [Item.encode, List.length_append] at h
      unfold Item.Bounded
      omega
  | _ => trivial

/-- **What is written says what was registered**, unless it is too long. -/
theorem registerParams_injective {p q : SysRegisterParams}
    (hlen : (registerParams p).length ≤ u64Max) (h : registerParams p = registerParams q) :
    p = q := by
  have hbounded : ∀ r : SysRegisterParams, registerParams p = registerParams r →
      ∀ i ∈ registerItems r, i.Bounded := by
    intro r hr i hi
    rw [hr, registerParams_eq, List.length_append] at hlen
    exact bounded_of_flatMap hi (by omega)
  have hmodel : ∀ r : SysRegisterParams, 2 + r.deviceModel.toList.length ≤ u64Max := by
    intro r
    have hone : r.deviceModel.toList.length ≤ 1 := by
      cases r.deviceModel with
      | none => exact Nat.zero_le 1
      | some model => exact Nat.le_refl 1
    unfold u64Max
    omega
  have hread := congrArg readHead h
  rw [registerParams_eq, registerParams_eq, readHead_length (by decide) (hmodel p),
    readHead_length (by decide) (hmodel q)] at hread
  obtain ⟨hcount, hitems⟩ := by simpa using hread
  have hvalues := flatMap_encode_inj (hbounded p rfl) (hbounded q h) hitems
  obtain ⟨name, model, sas⟩ := p
  obtain ⟨name', model', sas'⟩ := q
  have htext : ∀ {s t : String}, (Item.text s).value = (Item.text t).value → s = t :=
    fun hvalue => utf8_injective (Value.text.inj hvalue)
  cases model with
  | none =>
      cases model' with
      | none =>
          obtain ⟨-, hrest⟩ := List.cons.inj hvalues
          obtain ⟨hname, hrest⟩ := List.cons.inj hrest
          obtain ⟨-, hrest⟩ := List.cons.inj hrest
          obtain ⟨hsas, -⟩ := List.cons.inj hrest
          have hname : name = name' := htext hname
          have hsas : sas = sas' := htext hsas
          rw [hname, hsas]
      | some model' => simp at hcount
  | some model =>
      cases model' with
      | none => simp at hcount
      | some model' =>
          obtain ⟨-, hrest⟩ := List.cons.inj hvalues
          obtain ⟨hname, hrest⟩ := List.cons.inj hrest
          obtain ⟨-, hrest⟩ := List.cons.inj hrest
          obtain ⟨hmodel, hrest⟩ := List.cons.inj hrest
          obtain ⟨-, hrest⟩ := List.cons.inj hrest
          obtain ⟨hsas, -⟩ := List.cons.inj hrest
          have hname : name = name' := htext hname
          have hmodel : model = model' := htext hmodel
          have hsas : sas = sas' := htext hsas
          rw [hname, hmodel, hsas]

end Proto.MethodCbor
