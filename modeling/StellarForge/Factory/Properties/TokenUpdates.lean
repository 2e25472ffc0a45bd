import StellarForge.Factory.Properties.Histories

/-!
# What a call does to one token

`Token.Update` lists the calls that change the record of a token that exists, each with who has
authorized it.  `AbstractStep.fate` says that there are no others: seen from one address, a call leaves
what is recorded alone, records a new token, or is one of these.
-/

namespace StellarForge.Factory

open Collections FactoryModel

/-- The token whose record a call changes. -/
def Call.edits : Call → Option Address
  | .setMetadata token _ _ _ | .freezeMetadata token _ | .mintTokens token _ _ _ _
  | .setBurnEnabled token _ _ | .backfillCappedSupply _ token _ => some token
  | _ => none

/-- A change of the record of the token at `a`. -/
inductive Token.Update (env : Env) (m : FactoryModel) (a : Address) : Call → Token → Token → Prop
  | setMetadata {admin uri t t'} {feePayment : ℤ} (hc : IsCreator env m admin a t)
    (ht : t.setUri uri = some t') : Update env m a (.setMetadata a admin uri feePayment) t t'
  | freezeMetadata {admin t} (hc : IsCreator env m admin a t) :
    Update env m a (.freezeMetadata a admin) t { t with frozen := true }
  | mintTokens {admin recipient t t'} {amount feePayment : ℤ} (hc : IsCreator env m admin a t)
    (ht : t.mint amount = some t') :
    Update env m a (.mintTokens a admin recipient amount feePayment) t t'
  | setBurnEnabled {admin enabled t} (hc : IsCreator env m admin a t) :
    Update env m a (.setBurnEnabled a admin enabled) t { t with burnEnabled := enabled }
  | backfillCappedSupply {admin verified t t'} (ha : IsAdmin env m admin)
    (ht : t.backfill verified = some t') :
    Update env m a (.backfillCappedSupply admin a verified) t t'

/-- What a call does to what is recorded under the address `a`. -/
inductive Token.Fate (env : Env) (m : FactoryModel) (a : Address) (call : Call) :
    Option Token → Option Token → Prop
  | same {o : Option Token} (hcall : call.edits ≠ some a) : Fate env m a call o o
  | created {t' : Token} (hcall : call.edits ≠ some a) (huris : t'.uris = [])
    (hfrozen : t'.frozen = false) : Fate env m a call none (some t')
  | updated {t t' : Token} (h : Token.Update env m a call t t') :
    Fate env m a call (some t) (some t')

variable {env : Env} {m m' : FactoryModel} {i : Invocation} {t t' : Token} {a address : Address}
  {call : Call}

/-- An update keeps the address and the creator of a token. -/
theorem Token.Update.evolves (h : t.Update env m a call t') :
    t'.origin = t.origin ∧ t'.creator = t.creator ∧ t'.createdAt = t.createdAt := by
  cases h with
  | setMetadata hc ht =>
    obtain ⟨-, _, rfl⟩ := Token.setUri_eq_some ht
    exact ⟨rfl, rfl, rfl⟩
  | freezeMetadata hc => exact ⟨rfl, rfl, rfl⟩
  | mintTokens hc ht =>
    rcases Token.mint_eq_some ht with ⟨-, rfl⟩ | ⟨_, _, _, -, -, rfl⟩
    · exact ⟨rfl, rfl, rfl⟩
    · exact ⟨rfl, rfl, rfl⟩
  | setBurnEnabled hc => exact ⟨rfl, rfl, rfl⟩
  | backfillCappedSupply ha ht =>
    obtain ⟨-, _, _, _, -, -, rfl⟩ := Token.backfill_eq_some ht
    exact ⟨rfl, rfl, rfl⟩

/-- Replacing one record is an update at its own address and nothing elsewhere. -/
theorem Token.Fate.put (hfind : m.tokens.find? address = some t) (hcall : call.edits = some address)
    (h : t.Update env m address call t') :
    Fate env m a call (m.tokens.find? a) ((m.putToken t').tokens.find? a) := by
  obtain rfl := Keyed.key_of_find? hfind
  have haddress : t'.address = t.address := congrArg Prod.fst h.evolves.1
  have htokens : (m.putToken t').tokens = m.tokens.replace t' := rfl
  rw [htokens]
  by_cases ha : a = t.address
  · subst ha
    have hsame : m.tokens.find? t'.address = some t := by rw [haddress, hfind]
    rw [hfind, ← haddress, Keyed.find?_replace_self hsame, haddress]
    exact .updated h
  · rw [Keyed.find?_replace_of_ne (haddress ▸ ha)]
    refine .same ?_
    rw [hcall]
    exact fun heq => ha (Option.some.inj heq).symm

/-- A new token is recorded where nothing was. -/
theorem Token.Fate.create {creator : Address} {p : BatchTokenParams}
    (hcall : call.edits = none) (h : m.create env creator p address = some m') :
    Fate env m a call (m.tokens.find? a) (m'.tokens.find? a) := by
  have hother : call.edits ≠ some a := by
    rw [hcall]
    exact nofun
  obtain ⟨hp, hfree, rfl⟩ := create_eq_some h
  let t := Token.new env creator p hp address m.tokenWasmHash
  have hfree' : m.tokens.find? t.address = none := hfree
  change Fate env m a call (m.tokens.find? a) ((m.tokens.push t hfree').find? a)
  rw [Keyed.find?_push]
  split_ifs with ha
  · rw [ha, hfree']
    exact .created (ha ▸ hother) rfl rfl
  · exact .same hother

/-- So are the tokens of a batch. -/
theorem Token.Fate.createAll {creator : Address} {ps : List BatchTokenParams} {as : List Address}
    (hcall : call.edits = none) (h : m.createAll env creator ps as = some m') :
    Fate env m a call (m.tokens.find? a) (m'.tokens.find? a) := by
  have hother : call.edits ≠ some a := by
    rw [hcall]
    exact nofun
  induction ps generalizing m as with
  | nil =>
    rcases as with _ | ⟨address, as⟩
    · obtain rfl := Option.some.inj h
      exact .same hother
    · simp [FactoryModel.createAll] at h
  | cons p ps ih =>
    rcases as with _ | ⟨address, as⟩
    · simp [FactoryModel.createAll] at h
    · rw [FactoryModel.createAll, Option.bind_eq_some_iff] at h
      obtain ⟨m₁, hm₁, h⟩ := h
      have hfirst : Fate env m a call (m.tokens.find? a) (m₁.tokens.find? a) := .create hcall hm₁
      have hrest := ih h
      -- no step of a batch changes a record that exists
      generalize m.tokens.find? a = o at hfirst ⊢
      generalize m₁.tokens.find? a = o₁ at hfirst hrest
      generalize m'.tokens.find? a = o' at hrest ⊢
      cases hfirst with
      | same =>
        cases hrest with
        | same => exact .same hother
        | created _ huris hfrozen => exact .created hother huris hfrozen
        | updated hupdate => cases hupdate <;> cases hcall
      | created _ huris hfrozen =>
        cases hrest with
        | same => exact .created hother huris hfrozen
        | updated hupdate => cases hupdate <;> cases hcall
      | updated hupdate => cases hupdate <;> cases hcall

/-- **What a call does to one token.** -/
theorem AbstractStep.fate (h : AbstractStep m i m') (a : Address) :
    Token.Fate i.env m a i.call (m.tokens.find? a) (m'.tokens.find? a) := by
  obtain ⟨env, call, ret⟩ := i
  unfold AbstractStep at h
  cases h with
  | createToken hc hm => exact .create rfl hm
  | createTokensBatch hc hm => exact .createAll rfl hm
  | setMetadata hp hc hf ht => exact .put hc.find? rfl (.setMetadata hc ht)
  | freezeMetadata hp hc => exact .put hc.find? rfl (.freezeMetadata hc)
  | mintTokens hp hc hf hpos ht => exact .put hc.find? rfl (.mintTokens hc ht)
  | setBurnEnabled hc => exact .put hc.find? rfl (.setBurnEnabled hc)
  | backfillCappedSupply ha ht hb => exact .put ht rfl (.backfillCappedSupply ha hb)
  | _ => exact .same nofun

end StellarForge.Factory
