import Mathlib.Data.List.InsertIdx
import Sisfila.Calls.Measurement
import Sisfila.Model.Pages

namespace Sisfila

/-! A list with a pointer and the history of its calls. -/

/-- A fila as its statistics see it: its vagas in the order of their ids, the pointer, the counter
the last call left, whether a call can store it, the next id of the table, and the vagas called so
far. -/
@[ext] structure Painel where
  vagas : List Nat
  posicao : Int
  npatendidas : Option Int
  valida : Bool
  next : Nat
  chamadas : List Nat

namespace Painel

variable {x y : Painel}

/-- The vagas called and still present. -/
def presentes (x : Painel) : List Nat := x.chamadas.filter (fun j => decide (j ∈ x.vagas))

/-- More than two people have been attended. -/
def Atendeu (x : Painel) : Prop := ∃ n ∈ x.npatendidas,2<n

/-- What a request can do to it. -/
inductive Passo (x : Painel) : Painel → Prop
  | alheio (m : Nat) (hm : x.next ≤ m) : Passo x { x with next := m }
  | entra : Passo x { x with vagas := x.vagas++[x.next], next := x.next+1 }
  | chama (k j : Nat) (hk : x.posicao=k) (hj : x.vagas[k]?=some j) : Passo x { x with
      posicao := x.posicao+1
      npatendidas := if x.valida then some (x.posicao+1) else x.npatendidas
      chamadas := x.chamadas++[j] }
  | ninguem (hp : ¬(0≤x.posicao ∧ x.posicao≤(x.vagas.length : Int))) :
      Passo x { x with posicao := x.posicao+1 }
  | apaga (k : Nat) (hk : 2<x.posicao → x.Atendeu → x.posicao≤(k : Int)) :
      Passo x { x with vagas := x.vagas.eraseIdx k }

/-- The counter points at the last vaga called. -/
structure Coerente (x : Painel) : Prop where
  ponteiro : 0≤x.posicao
  gravavel : x.valida=true ∨ ¬x.Atendeu
  emitidas : (∀ j ∈ x.vagas,j<x.next) ∧ ∀ j ∈ x.chamadas,j<x.next
  ultima : 0<x.posicao → x.Atendeu → x.npatendidas=some x.posicao ∧
    ∃ j,x.vagas[(x.posicao-1).toNat]?=some j ∧ x.presentes.getLast?=some j

theorem getLast_filter {p : Nat → Bool} {l : List Nat} {j : Nat} (h : l.getLast?=some j)
    (hj : p j=true) : (l.filter p).getLast?=some j := by
  obtain ⟨l,rfl⟩ := List.getLast?_eq_some_iff.mp h
  simp [hj]

/-- Nobody called after the last one comes back when others leave. -/
theorem getLast_presentes_eraseIdx {k j : Nat} (h : x.presentes.getLast?=some j)
    (hj : j ∈ x.vagas.eraseIdx k) :
    ({ x with vagas := x.vagas.eraseIdx k } : Painel).presentes.getLast?=some j := by
  have hf : ({ x with vagas := x.vagas.eraseIdx k } : Painel).presentes=
      x.presentes.filter (fun j => decide (j ∈ x.vagas.eraseIdx k)) := by
    unfold presentes
    rw [List.filter_filter]
    refine List.filter_congr ?_
    intro i _
    rw [← Bool.decide_and,decide_eq_decide]
    exact (and_iff_left_of_imp List.mem_of_mem_eraseIdx).symm
  rw [hf]
  exact getLast_filter h (decide_eq_true hj)

namespace Coerente

theorem entra (h : x.Coerente) :
    ({ x with vagas := x.vagas++[x.next], next := x.next+1 } : Painel).Coerente := by
  have hp : ({ x with vagas := x.vagas++[x.next], next := x.next+1 } : Painel).presentes=
      x.presentes := by
    refine List.filter_congr ?_
    intro i hi
    have hne : i≠x.next := ne_of_lt (h.emitidas.2 i hi)
    rw [decide_eq_decide]
    simp [hne]
  refine ⟨h.ponteiro,h.gravavel,⟨?_,fun j hj => Nat.lt_succ_of_lt (h.emitidas.2 j hj)⟩,?_⟩
  · intro j hj
    rcases List.mem_append.mp hj with hj | hj
    · exact Nat.lt_succ_of_lt (h.emitidas.1 j hj)
    · rw [List.mem_singleton.mp hj]
      exact Nat.lt_succ_self _
  · intro h0 ha
    obtain ⟨hn,j,hj,hl⟩ := h.ultima h0 ha
    refine ⟨hn,j,?_,hp ▸ hl⟩
    rw [List.getElem?_append_left (List.getElem?_eq_some_iff.mp hj).1]
    exact hj

theorem apaga (h : x.Coerente) {k : Nat} (hk : 2<x.posicao → x.Atendeu → x.posicao≤(k : Int)) :
    ({ x with vagas := x.vagas.eraseIdx k } : Painel).Coerente := by
  refine ⟨h.ponteiro,h.gravavel,
    ⟨fun j hj => h.emitidas.1 j (List.mem_of_mem_eraseIdx hj),h.emitidas.2⟩,?_⟩
  intro (h0 : 0<x.posicao) (ha : x.Atendeu)
  obtain ⟨hn,j,hj,hl⟩ := h.ultima h0 ha
  have h2 : 2<x.posicao := by
    obtain ⟨n,hm,h2⟩ := ha
    rw [hn] at hm
    rw [Option.some.inj hm]
    exact h2
  have hle := hk h2 ha
  have he : (x.vagas.eraseIdx k)[(x.posicao-1).toNat]?=some j := by
    rw [List.getElem?_eraseIdx_of_lt (by omega)]
    exact hj
  exact ⟨hn,j,he,getLast_presentes_eraseIdx hl (List.mem_of_getElem? he)⟩

theorem chama (h : x.Coerente) {k j : Nat} (hk : x.posicao=k) (hj : x.vagas[k]?=some j) :
    ({ x with
      posicao := x.posicao+1
      npatendidas := if x.valida then some (x.posicao+1) else x.npatendidas
      chamadas := x.chamadas++[j] } : Painel).Coerente := by
  have hm := List.mem_of_getElem? hj
  have hc : ∀ i ∈ x.chamadas++[j],i<x.next := by
    intro i hi
    rcases List.mem_append.mp hi with hi | hi
    · exact h.emitidas.2 i hi
    · rw [List.mem_singleton.mp hi]
      exact h.emitidas.1 j hm
  refine ⟨Int.le_add_one h.ponteiro,?_,⟨h.emitidas.1,hc⟩,?_⟩
  · cases hv : x.valida with
    | true => exact .inl rfl
    | false => exact .inr (h.gravavel.resolve_left (by simp [hv]))
  · rintro - ⟨n,hn,h2⟩
    dsimp only at hn ⊢
    cases hv : x.valida with
    | false =>
      -- a counter that cannot be stored has never been above 2
      rw [hv,if_neg Bool.false_ne_true] at hn
      exact absurd ⟨n,hn,h2⟩ (h.gravavel.resolve_left (by simp [hv]))
    | true =>
      refine ⟨if_pos rfl,j,?_,?_⟩
      · rw [hk,← hj]
        congr 1
        omega
      · simp [presentes,hm]

theorem ninguem (h : x.Coerente) (hp : ¬(0≤x.posicao ∧ x.posicao≤(x.vagas.length : Int))) :
    ({ x with posicao := x.posicao+1 } : Painel).Coerente := by
  have h0 := h.ponteiro
  refine ⟨Int.le_add_one h.ponteiro,h.gravavel,h.emitidas,?_⟩
  -- the pointer had left the list, which it does only while the counter is low
  intro _ (ha : x.Atendeu)
  have hpos : 0<x.posicao := by omega
  obtain ⟨-,j,hj,-⟩ := h.ultima hpos ha
  have hlt := (List.getElem?_eq_some_iff.mp hj).1
  omega

theorem passo (h : x.Coerente) (hy : x.Passo y) : y.Coerente := by
  cases hy with
  | alheio m hm =>
    exact ⟨h.ponteiro,h.gravavel,⟨fun j hj => (h.emitidas.1 j hj).trans_le hm,
      fun j hj => (h.emitidas.2 j hj).trans_le hm⟩,h.ultima⟩
  | entra => exact h.entra
  | chama k j hk hj => exact h.chama hk hj
  | ninguem hp => exact h.ninguem hp
  | apaga k hk => exact h.apaga hk

/-- Past the guard of the statistics. -/
theorem encontra (h : x.Coerente) {n : Int} (hp : 2<x.posicao) (hn : x.npatendidas=some n)
    (h2 : 2<n) : ∃ j,x.vagas[(n-1).toNat]?=some j ∧ x.presentes.getLast?=some j := by
  obtain ⟨he,j,hj,hl⟩ := h.ultima (by omega) ⟨n,hn,h2⟩
  obtain rfl : n=x.posicao := Option.some.inj (hn.symm.trans he)
  exact ⟨j,hj,hl⟩

end Coerente

end Painel

/-! The requests. -/

def Db.painel (d : Db) (f : Fila) (chamadas : List Nat) : Painel where
  vagas := (d.vagasDe (some f.id)).map (fun v => v.id)
  posicao := f.posicao
  npatendidas := f.npatendidas
  valida := d.filaValida f.toFilaBase
  next := d.vagas.next
  chamadas := chamadas

theorem Db.painel_vagas (d : Db) (i : Nat) :
    (d.vagasDe (some i)).map (fun v => v.id)=(d.core.vagasDe i).map (fun v => v.id) := by
  rw [Db.vagasDe_core,List.map_map]
  rfl

/-- Two states with the same vagas. -/
theorem Db.painel_of_vagas {d d' : Db} {f f' : Fila} (hid : f'.id=f.id)
    (hv : d'.core.vagas=d.core.vagas) (c : List Nat) : d'.painel f' c={ d.painel f c with
      posicao := f'.posicao
      npatendidas := f'.npatendidas
      valida := d'.filaValida f'.toFilaBase } := by
  have hids : d'.core.vagasDe f.id=d.core.vagasDe f.id := by
    unfold Core.vagasDe
    rw [hv]
  have hn : d'.core.vagas.next=d.core.vagas.next := congrArg Table.next hv
  have hn : d'.vagas.next=d.vagas.next := hn
  simp only [painel,painel_vagas,hid,hids,hn]

/-- The vaga of fila `i` the request calls: the pointer has moved to it. -/
def Rota.chamada (r : Rota) (i : Nat) (s : World) : Option Nat :=
  (s.db.filas.find i).bind (fun f => ((r.prog.exec s).state.db.filas.find i).bind (fun f' =>
    if f'.posicao=f.posicao then none
    else ((s.db.vagasDe (some i)).find? (fun v => v.posicao==some f'.posicao)).map (fun v => v.id)))

/-- The vagas of fila `i` called in a run from `s`, in their order, after those of `c`. -/
def historico (i : Nat) : World → List Nat → List Rota → List Nat
  | _,c,[] => c
  | s,c,r::rs => historico i (r.prog.exec s).state (c++(r.chamada i s).toList) rs

theorem Rota.chamada_of_find {r : Rota} {i : Nat} {s : World}
    (h : (r.prog.exec s).state.db.filas.find i=s.db.filas.find i) : r.chamada i s=none := by
  unfold chamada
  rw [h]
  cases s.db.filas.find i <;> simp

theorem Rota.chamada_of_chama {r : Rota} {s : World} {f f' : Fila}
    (hf : s.db.filas.find f.id=some f)
    (hf' : (r.prog.exec s).state.db.filas.find f.id=some f') (hp : f'.posicao=f.posicao+1) :
    r.chamada f.id s=(s.db.vagaAlvo f 1).map (fun v => v.id) := by
  unfold chamada
  rw [hf,hf',Option.bind_some,Option.bind_some,if_neg (by omega),hp]
  rfl

/-- The counter after a call is the position of whoever was called, if it can be stored. -/
theorem npatendidas_chamaProximo {f f' : Fila} {s : World} (hc : s.db.core.Contigua)
    (hf : s.db.filas.find f.id=some f) (mesa : Option Nat)
    (hf' : ((f.chamaProximo mesa 1).exec s).state.db.filas.find f.id=some f') :
    f'.npatendidas=(s.db.vagaAlvo f 1).elim f.npatendidas
      (fun _ => if s.db.filaValida f.toFilaBase then some (f.posicao+1) else f.npatendidas) ∧
    ((f.chamaProximo mesa 1).exec s).state.db.filaValida f'.toFilaBase=
      s.db.filaValida f.toFilaBase := by
  have hve := ve_incrementa hf 1
  cases hva : s.db.vagaAlvo f 1 with
  | none =>
    obtain ⟨ms,hms⟩ := db_chamaProximo_of_none hva mesa
    rw [hms] at hf' ⊢
    obtain rfl := Option.some.inj (hve.fila.symm.trans hf')
    exact ⟨rfl,hve.valida⟩
  | some v =>
    rw [state_chamaProximo,hva] at hf' ⊢
    obtain ⟨hvm,hvp,hvf⟩ := Db.vagaAlvo_some hva
    obtain ⟨⟨u,hu,hup⟩,-⟩ := hc.posicoes hvm
    obtain ⟨y,hy,hval,-,hcont⟩ := Mesa.contagem_associaVagaAMesa hve hvf hu hup hvp mesa
    obtain rfl : y.fila=f' := Option.some.inj (hy.fila.symm.trans hf')
    refine ⟨?_,hy.valida.trans hval⟩
    have hv : (s.vistaApos f 1).valida=s.db.filaValida f.toFilaBase := rfl
    rw [hv] at hcont
    rw [Option.elim_some]
    split_ifs at hcont ⊢
    · exact (Prod.mk.inj hcont).1
    · exact (Prod.mk.inj hcont).1

/-- A call of a fila whose pointer is not at the end of its list. -/
theorem passo_chamaProximo {f f' : Fila} {s : World} (hc : s.db.core.Contigua)
    (hf : s.db.filas.find f.id=some f) (hn : f.posicao≠(s.db.contaVagas f.id : Int))
    (mesa : Option Nat)
    (hf' : ((f.chamaProximo mesa 1).exec s).state.db.filas.find f.id=some f') (c : List Nat) :
    (s.db.painel f c).Passo (((f.chamaProximo mesa 1).exec s).state.db.painel f'
      (c++((s.db.vagaAlvo f 1).map (fun v => v.id)).toList)) := by
  have hid : f'.id=f.id := Table.key_of_find hf'
  have hpos := posicao_chamaProximo hf hf hf'
  rw [if_pos rfl] at hpos
  obtain ⟨ms,hk⟩ := Core.Chama.exists_mesas (visto_chamaProximo f 1 mesa s hf)
  have hvagas : ((f.chamaProximo mesa 1).exec s).core.vagas=s.db.core.vagas := by
    rw [hk]
    rfl
  obtain ⟨hat,hval⟩ := npatendidas_chamaProximo hc hf mesa hf'
  rw [Db.painel_of_vagas hid hvagas,hpos,hat,hval]
  cases hva : s.db.vagaAlvo f 1 with
  | none =>
    have hno : ¬(1≤f.posicao+1 ∧ f.posicao+1≤(s.db.contaVagas f.id : Int)) := by
      rw [← vagaAlvo_iff hc f 1,hva]
      simp
    have hlen : (s.db.painel f c).vagas.length=s.db.contaVagas f.id := List.length_map _
    have hp : ¬(0≤f.posicao ∧ f.posicao≤((s.db.painel f c).vagas.length : Int)) := by
      rw [hlen]
      omega
    rw [Option.map_none,Option.toList_none,List.append_nil,Option.elim_none]
    exact .ninguem hp
  | some v =>
    obtain ⟨hvm,hvp,hvf⟩ := Db.vagaAlvo_some hva
    obtain ⟨k,-,hkv,hkp⟩ := (hc.numerada f.id).pos_of_mem hvm
    have hk : f.posicao=(k : Int) := by
      have he := Option.some.inj (hvp.symm.trans hkp)
      omega
    have hj : (s.db.painel f c).vagas[k]?=some v.id := by
      change ((s.db.vagasDe (some f.id)).map (fun v => v.id))[k]?=_
      rw [List.getElem?_map,hkv]
      rfl
    exact .chama k v.id hk hj

/-! Requests that leave the filas alone. -/

/-- Enrolments add a vaga, deletions by a superadmin take one, and nothing else changes them. -/
theorem Rota.alteraVagas {r : Rota} (s : World) (hr : r.chamaOuApaga=true) :
    (r.prog.exec s).core.colegiados=s.db.core.colegiados ∧
    ((r.prog.exec s).core.vagas=s.db.core.vagas ∨
      (∃ a j n t,(r.prog.exec s).core.vagas=(s.db.core.insereVaga a j n t).vagas) ∨
      ∃ u v,r=.vagasDestroy u v.id ∧ Ability.manageAll u=true ∧
        s.db.core.vagas.find v.id=some v ∧
        (r.prog.exec s).core.vagas=(s.db.core.apagaVaga v).vagas) := by
  have hef : ∀ {q k'},s.db.core.Efeito q k' → k'.colegiados=s.db.core.colegiados ∧
      (k'.vagas=s.db.core.vagas ∨ ∃ a j n t,k'.vagas=(s.db.core.insereVaga a j n t).vagas) := by
    intro q k' h
    cases h with
    | inscreve u m a g f t => exact ⟨rfl,.inr ⟨_,_,_,_,rfl⟩⟩
    | nada => exact ⟨rfl,.inl rfl⟩
    | avanca => exact ⟨rfl,.inl rfl⟩
    | recua => exact ⟨rfl,.inl rfl⟩
    | ativa => exact ⟨rfl,.inl rfl⟩
  refine r.mantem s (I := fun k' => k'.colegiados=s.db.core.colegiados ∧
    (k'.vagas=s.db.core.vagas ∨ (∃ a j n t,k'.vagas=(s.db.core.insereVaga a j n t).vagas) ∨
      ∃ u v,r=.vagasDestroy u v.id ∧ Ability.manageAll u=true ∧
        s.db.core.vagas.find v.id=some v ∧ k'.vagas=(s.db.core.apagaVaga v).vagas))
    ⟨rfl,.inl rfl⟩ (Rota.importa_of (fun _ _ _ _ => rfl) hr) ?_ ?_
  · intro u m ok es k' hp
    exact (hef hp.efeito).imp_right (Or.imp_right .inl)
  · intro k' hs hm
    cases hm with
    | nada => exact ⟨rfl,.inl rfl⟩
    | rodadas => exact ⟨rfl,.inl rfl⟩
    | requisicao q hp => exact (hef hp.efeito).imp_right (Or.imp_right .inl)
    | vagasDestroy u v hv ha => exact ⟨rfl,.inr (.inr ⟨u,v,rfl,hs,hv,rfl⟩)⟩
    | _ => cases hr

/-- `inscrever`, both `proximo` and `VagasController#destroy`. -/
def Rota.adiante : Rota → Bool
  | .requisicao (.inscrever _ _) => true
  | .requisicao (.filasProximo _ _) => true
  | .requisicao (.colegiadosProximo _ _) => true
  | .vagasDestroy _ _ => true
  | _ => false

theorem Rota.chamaOuApaga_of_adiante {r : Rota} (h : r.adiante=true) : r.chamaOuApaga=true := by
  cases r with
  | requisicao q =>
    cases q with
    | filasUpdateAtivo u i b => cases h
    | _ => rfl
  | vagasDestroy u i => rfl
  | _ => cases h

/-- A superadmin deletes a vaga that the pointer of its fila has reached, while the fila has
statistics to show. -/
def Rota.apagaChamada (d : Db) : Rota → Bool
  | .vagasDestroy u j => decide (Ability.manageAll u=true ∧ ∃ v ∈ d.vagas.rows,v.id=j ∧
      ∃ f ∈ d.filas.rows,v.filaId=some f.id ∧ 2<f.posicao ∧ (∃ n ∈ f.npatendidas,2<n) ∧
        ∃ p ∈ v.posicao,p≤f.posicao)
  | _ => false

theorem Core.ids_apagaVaga {k : Core} {v : VagaBase} {i n : Nat}
    (hn : (k.vagasDe i)[n]?=some v) : ((k.apagaVaga v).vagasDe i).map (fun v => v.id)=
      ((k.vagasDe i).map (fun v => v.id)).eraseIdx n := by
  have hr : (k.apagaVaga v).vagasDe i=_ :=
    Table.filter_remove (S := naFila v.filaId) (naFila_put (some i)) v k.vagas
  rw [hr,Table.filter_ne_eq_eraseIdx (S := naFila (some i)) hn,List.map_map,List.eraseIdx_map]
  refine List.map_congr_left ?_
  intro w _
  have hk : Row.key (Table.closeRow (naFila v.filaId) (Listed.pos v) w)=Row.key w :=
    Table.key_closeRow _ _ w
  exact hk

/-- A request that leaves a fila alone, as that fila sees it. -/
theorem passo_of_find {r : Rota} {s : World} {f : Fila} (hc : s.db.core.Contigua)
    (hr : r.chamaOuApaga=true) (hg : r.apagaChamada s.db=false)
    (hf : s.db.filas.find f.id=some f) (c : List Nat) :
    (s.db.painel f c).Passo ((r.prog.exec s).state.db.painel f c) := by
  obtain ⟨hcol,hvagas⟩ := Rota.alteraVagas s hr
  have hval : (r.prog.exec s).state.db.filaValida f.toFilaBase=s.db.filaValida f.toFilaBase := by
    have hcol : (r.prog.exec s).state.db.colegiados=s.db.colegiados := hcol
    unfold Db.filaValida Db.colegiadoDe
    rw [hcol]
  have hp : (r.prog.exec s).state.db.painel f c={ s.db.painel f c with
      vagas := ((r.prog.exec s).core.vagasDe f.id).map (fun v => v.id)
      next := (r.prog.exec s).core.vagas.next } := by
    unfold Db.painel
    rw [hval,Db.painel_vagas]
    rfl
  have hids : (s.db.painel f c).vagas=(s.db.core.vagasDe f.id).map (fun v => v.id) :=
    s.db.painel_vagas f.id
  rw [hp]
  unfold Core.vagasDe
  rcases hvagas with hv | ⟨a,j,n,t,hv⟩ | ⟨u,v,rfl,hu,hfind,hv⟩
  · rw [hv]
    change Painel.Passo _ { s.db.painel f c with vagas := (s.db.core.vagasDe f.id).map _, next := _ }
    rw [← hids]
    exact .alheio _ (Nat.le_refl _)
  · rw [hv]
    change Painel.Passo _ { s.db.painel f c with
      vagas := ((s.db.core.insereVaga a j n t).vagasDe f.id).map _, next := s.db.vagas.next+1 }
    rw [Core.vagasDe_insereVaga]
    split_ifs with hj
    · rw [List.map_append,← hids]
      exact .entra
    · rw [← hids]
      exact .alheio _ (Nat.le_succ _)
  · rw [hv]
    change Painel.Passo _ { s.db.painel f c with
      vagas := ((s.db.core.apagaVaga v).vagasDe f.id).map _, next := s.db.vagas.next }
    by_cases hvf : v.filaId=some f.id
    · obtain ⟨w,hw,rfl⟩ := List.mem_map.mp (Table.mem_of_find hfind)
      obtain ⟨m,-,hm,hpos⟩ := (hc f.id).pos_of_mem
        (Core.mem_vagasDe.mpr ⟨Table.mem_of_find hfind,hvf⟩)
      rw [Core.ids_apagaVaga hm,← hids]
      refine .apaga m (fun h2 ha => ?_)
      -- otherwise the pointer has reached the vaga that is deleted
      by_contra hlt
      have hle : (m : Int)+1≤f.posicao := Int.not_le.mp hlt
      exact of_decide_eq_false hg ⟨hu,w,hw,rfl,f,Table.mem_of_find hf,hvf,h2,ha,_,hpos,hle⟩
    · rw [Core.vagasDe_apagaVaga_of_ne (Table.mem_of_find hfind) hvf,← hids]
      exact .alheio _ (Nat.le_refl _)

/-! Whole runs. -/

/-- Enrolments, calls and deletions, none of a vaga the statistics still need. -/
def poupaChamadas (s : World) (r : Rota) (_ : Outcome Evento World Erro Resposta) : Prop :=
  r.adiante=true ∧ r.apagaChamada s.db=false

instance (s : World) (r : Rota) (o : Outcome Evento World Erro Resposta) :
    Decidable (poupaChamadas s r o) := inferInstanceAs (Decidable (_ ∧ _))

/-- Every fila is in step with the vagas it has called. -/
structure EmPasso (s : World) (c : Nat → List Nat) : Prop where
  contigua : s.db.core.Contigua
  filas : ∀ f ∈ s.db.filas.rows,(s.db.painel f (c f.id)).Coerente

namespace EmPasso

variable {s : World} {c : Nat → List Nat}

/-- One request. -/
theorem passo (h : EmPasso s c) {r : Rota} (hr : r.adiante=true) (hg : r.apagaChamada s.db=false) :
    EmPasso (r.prog.exec s).state (fun i => c i++(r.chamada i s).toList) := by
  have hca := Rota.chamaOuApaga_of_adiante hr
  have hcont : (r.prog.exec s).state.db.core.Contigua :=
    Rota.contigua h.contigua hca
  refine ⟨hcont,?_⟩
  intro f' hf'm
  have hf' : (r.prog.exec s).state.db.filas.find f'.id=some f' := Table.find_of_mem hf'm
  have hsame : (r.prog.exec s).state.db.filas.find f'.id=s.db.filas.find f'.id →
      ((r.prog.exec s).state.db.painel f' (c f'.id++(r.chamada f'.id s).toList)).Coerente := by
    intro he
    rw [Rota.chamada_of_find he,Option.toList_none,List.append_nil]
    rw [hf'] at he
    exact (h.filas f' (Table.mem_of_find he.symm)).passo
      (passo_of_find h.contigua hca hg he.symm (c f'.id))
  rcases Rota.filas_or_chama (s := s) hca with he | ⟨f,n,mesa,hf,hn,hst⟩
  · exact hsame (by rw [he])
  · by_cases hid : f'.id=f.id
    · obtain ⟨rfl,hend⟩ := hn.resolve_right (by
        rintro ⟨-,u,i,rfl⟩
        cases hr)
      rw [hid] at hf'
      rw [hst] at hf'
      have hpos := posicao_chamaProximo hf hf hf'
      rw [if_pos rfl] at hpos
      have hp := passo_chamaProximo h.contigua hf hend mesa hf' (c f.id)
      rw [← hst] at hf' hp
      rw [hid,Rota.chamada_of_chama hf hf' hpos]
      exact (h.filas f (Table.mem_of_find hf)).passo hp
    · refine hsame ?_
      rw [hst]
      exact find_chamaProximo_of_ne hid n mesa s

/-- Any number of them. -/
theorem corre (h : EmPasso s c) {rs : List Rota} (hrs : AllowedRun Rota.prog poupaChamadas s rs) :
    EmPasso (runAll Rota.prog s rs) (fun i => historico i s (c i) rs) := by
  induction rs generalizing s c with
  | nil => exact h
  | cons r rs ih => exact ih (h.passo hrs.1.1 hrs.1.2) hrs.2

end EmPasso

theorem emPasso_inicial {s : World} (hv : s.db.vagas.rows=[]) (hf : ∀ f ∈ s.db.filas.rows,
    f.posicao=0 ∧ (s.db.filaValida f.toFilaBase=true ∨ ∀ n ∈ f.npatendidas,n≤2)) :
    EmPasso s (fun _ => []) where
  contigua := Core.contigua_of_vazia (by simp [hv])
  filas := by
    intro f hm
    obtain ⟨hp,hval⟩ := hf f hm
    refine ⟨le_of_eq hp.symm,hval.imp_right ?_,⟨?_,nofun⟩,?_⟩
    · rintro hn ⟨n,hmem,h2⟩
      exact absurd (hn n hmem) (not_le.mpr h2)
    · intro j hj
      simp [Db.painel,Db.vagasDe,hv] at hj
    · intro h0
      exact absurd hp (ne_of_gt h0)

/-- The lookups of the statistics, once their guard has let a request through. In every state that
enrolments, calls and deletions reach from filas with `posicao` 0 and no vagas, as long as no vaga
that the pointer has reached is deleted while its fila has statistics, all three find their row, and
the row at the counter is the vaga called last of those still there. -/
theorem estatisticas_encontram {s₀ s : World} (hv : s₀.db.vagas.rows=[])
    (hf₀ : ∀ f ∈ s₀.db.filas.rows,f.posicao=0 ∧
      (s₀.db.filaValida f.toFilaBase=true ∨ ∀ n ∈ f.npatendidas,n≤2))
    {rs : List Rota} (hrs : AllowedRun Rota.prog poupaChamadas s₀ rs)
    (hs : s=runAll Rota.prog s₀ rs) {i : Nat} {f : Fila} {n : Int}
    (hf : s.db.filas.find i=some f) (hp : 2<f.posicao) (hn : f.npatendidas=some n) (h2 : 2<n) :
    ((Mesa.primeiraVaga (some i)).exec s).ok=true ∧ ((Mesa.ultimaVaga (some i)).exec s).ok=true ∧
      ∃ v,((FilasController.vagaNoIndice f n).exec s).result=.ok v ∧
        ((historico i s₀ [] rs).filter
          (fun j => decide (∃ w ∈ s.db.vagasDe (some i),w.id=j))).getLast?=some v.id := by
  have h : EmPasso s (fun i => historico i s₀ [] rs) := hs ▸ (emPasso_inicial hv hf₀).corre hrs
  have hid : f.id=i := Table.key_of_find hf
  subst hid
  obtain ⟨j,hj,hl⟩ := (h.filas f (Table.mem_of_find hf)).encontra hp hn h2
  change ((s.db.vagasDe (some f.id)).map (fun v => v.id))[(n-1).toNat]?=some j at hj
  rw [List.getElem?_map] at hj
  obtain ⟨v,hv,rfl⟩ := Option.map_eq_some_iff.mp hj
  have hne : s.db.vagasDe (some f.id)≠[] := List.ne_nil_of_mem (List.mem_of_getElem? hv)
  have hprim := List.head?_eq_some_head hne
  have hult := List.getLast?_eq_some_getLast hne
  have hind : ((FilasController.vagaNoIndice f n).exec s).result=.ok v := by
    unfold FilasController.vagaNoIndice
    generalize (n-1).toNat=m at hv ⊢
    simp [Prog.exec_bind,hv]
  refine ⟨by simp [Mesa.primeiraVaga,Prog.exec_bind,hprim],
    by simp [Mesa.ultimaVaga,Prog.exec_bind,hult],v,hind,?_⟩
  rw [← hl]
  congr 1
  refine List.filter_congr ?_
  intro j _
  rw [decide_eq_decide]
  exact List.mem_map.symm

/-- Four enrolments, three calls, and the deletion of the vaga that still waits. -/
theorem estatisticas_encontram_cenario :
    let rs : List Rota := [.requisicao (Cenario.inscreve "a"),.requisicao (Cenario.inscreve "b"),
      .requisicao (Cenario.inscreve "c"),.requisicao (Cenario.inscreve "d"),
      .requisicao (.filasProximo (Cenario.mesa 1) 1),.requisicao (.filasProximo (Cenario.mesa 1) 1),
      .requisicao (.filasProximo (Cenario.mesa 1) 1),.vagasDestroy (Cenario.mesa 1) 4]
    let s := runAll Rota.prog (Cenario.world Cenario.nova Table.empty) rs
    s.db.vagas.rows.length=3 ∧ ∃ f ∈ s.db.filas.find 1,
      ∃ v,((FilasController.vagaNoIndice f 3).exec s).result=.ok v ∧
        ((historico 1 (Cenario.world Cenario.nova Table.empty) [] rs).filter
          (fun j => decide (∃ w ∈ s.db.vagasDe (some 1),w.id=j))).getLast?=some v.id := by
  intro rs s
  have hrs : AllowedRun Rota.prog poupaChamadas (Cenario.world Cenario.nova Table.empty) rs := by
    decide +kernel
  have hlen : s.db.vagas.rows.length=3 := by decide +kernel
  obtain ⟨f,hf,hp,hn⟩ : ∃ f ∈ s.db.filas.find 1,2<f.posicao ∧ f.npatendidas=some 3 := by
    decide +kernel
  have hs : s=runAll Rota.prog (Cenario.world Cenario.nova Table.empty) rs := rfl
  clear_value s rs
  obtain ⟨-,-,h⟩ := estatisticas_encontram rfl (by decide) hrs hs hf hp hn (by decide)
  exact ⟨hlen,f,hf,h⟩

/-- Three enrolments, three calls, and the deletion of the first vaga: no row is left at the
counter. -/
theorem estatisticas_encontram_apagada :
    let s := runAll Rota.prog (Cenario.world Cenario.nova Table.empty)
      [.requisicao (Cenario.inscreve "a"),.requisicao (Cenario.inscreve "b"),
        .requisicao (Cenario.inscreve "c"),.requisicao (.filasProximo (Cenario.mesa 1) 1),
        .requisicao (.filasProximo (Cenario.mesa 1) 1),
        .requisicao (.filasProximo (Cenario.mesa 1) 1),.vagasDestroy (Cenario.mesa 1) 1]
    ∃ f ∈ s.db.filas.find 1,2<f.posicao ∧ f.npatendidas=some 3 ∧
      ((FilasController.vagaNoIndice f 3).exec s).ok=false := by
  decide +kernel

end Sisfila
