import Sisfila.Queue.WaitingList

namespace Sisfila

namespace Core

/-- The loop of `Aluno#posicao_total` over the filas called first. -/
def somaFilas (k : Core) : List FilaBase → Int → Except Erro Int
  | [],n => .ok n
  | f::fs,n => match (k.vagasDe f.id).getLast?.bind VagaBase.posicao with
    | none => .error .noMethodError
    | some p => k.somaFilas fs (if 0<p-f.posicao then n+(p-f.posicao) else n)

/-- What `Aluno#posicao_total` answers for a vaga at `p` past the pointer of `f`. -/
def posicaoApos (k : Core) (a : Aluno) (p : Option Int) (f : FilaBase) : Except Erro Int :=
  (k.somaFilas ((k.filasAtivas (k.colegiadoDe a.colegiadoId)).filter
    (Aluno.antes f.prioridade)) 0).bind (fun soma => match p with
      | none => .error .noMethodError
      | some p => .ok (if 0<p-f.posicao then soma+(p-f.posicao) else soma))

/-- What `Aluno#posicao_total` answers. -/
def posicaoTotal (k : Core) (a : Aluno) : Except Erro Int :=
  match k.proximaVaga a with
  | none => .ok (-1)
  | some (v,f) => if v.posicao=some f.posicao then .ok 0 else k.posicaoApos a v.posicao f

end Core

theorem reads_ultimaVaga (f : Option Nat) : Reads (Mesa.ultimaVaga f) (fun d =>
    match (d.vagasDe f).getLast? with
    | some v => .ok v
    | none => .error .noMethodError) := by
  refine ((Reads.le (fun _ => rfl) (fun d => (d.vagasDe f).getLast?)).bind
    (fun o => Reads.orRaise .noMethodError o)).congr ?_
  intro d
  simp only [Except.bind]
  cases (d.vagasDe f).getLast? <;> rfl

theorem reads_somaFilas (fs : List Fila) (n : Int) : Reads (Aluno.somaFilas fs n)
    (fun d => d.core.somaFilas (fs.map Fila.toFilaBase) n) := by
  induction fs generalizing n with
  | nil => exact Reads.ret n
  | cons f fs ih =>
    refine ((reads_ultimaVaga (some f.id)).bind (fun v =>
      (Reads.orRaise .noMethodError v.posicao).bind (fun p => ih _))).congr ?_
    intro d
    simp only [List.map_cons,Core.somaFilas,Db.vagasDe_core,List.getLast?_map]
    cases (d.vagasDe (some f.id)).getLast? with
    | none => rfl
    | some v => cases hp : v.posicao <;> simp [Except.bind,hp]

private theorem reads_posicaoApos (a : Aluno) (p : Option Int) (f : Fila) : Reads (do
      let c ← consulta (fun d => d.colegiadoDe a.colegiadoId)
      let filas ← consulta (fun d =>
        (Aluno.filasAtivas c d).filter (fun g => Aluno.antes f.prioridade g.toFilaBase))
      let soma ← Aluno.somaFilas filas 0
      let p ← orRaise .noMethodError p
      pure (if 0<p-f.posicao then soma+(p-f.posicao) else soma))
    (fun d => d.core.posicaoApos a p f.toFilaBase) := by
  refine ((Reads.consulta _).bind (fun c => (Reads.consulta _).bind (fun filas =>
    (reads_somaFilas filas 0).bind (fun soma =>
      (Reads.orRaise .noMethodError p).bind (fun p => Reads.ret _))))).congr ?_
  intro d
  rw [Core.posicaoApos,Db.filasAtivas_core,Db.colegiadoDe_core,List.filter_map]
  simp only [Except.bind]
  cases p <;> rfl

theorem reads_posicaoTotal (a : Aluno) :
    Reads a.posicaoTotal (fun d => d.core.posicaoTotal a) := by
  refine ((reads_proximaVaga a).bind (q := fun x d => x.elim (.ok (-1)) (fun x =>
    if x.1.posicao=some x.2.posicao then .ok 0
    else d.core.posicaoApos a x.1.posicao x.2.toFilaBase)) (fun x => ?_)).congr ?_
  · cases x with
    | none => exact Reads.ret (-1)
    | some x =>
      simp only [Option.elim_some]
      split_ifs
      · exact Reads.ret 0
      · exact reads_posicaoApos a x.1.posicao x.2
  · intro d
    rw [Core.posicaoTotal,← acha_core]
    cases a.acha (Aluno.filasAtivas (d.colegiadoDe a.colegiadoId) d) d with
    | none => rfl
    | some x => rfl

theorem result_posicaoTotal (a : Aluno) (s : World) :
    (a.posicaoTotal.exec s).result=s.db.core.posicaoTotal a := by
  obtain ⟨log,he,-⟩ := reads_posicaoTotal a s
  rw [he]

theorem acha_mem {a : Aluno} {fs : List Fila} {d : Db} {x : Vaga × Fila}
    (h : a.acha fs d=some x) : x.1 ∈ d.vagas.rows := by
  obtain ⟨f,-,hf⟩ := List.exists_of_findSome?_eq_some h
  obtain ⟨v,hv,rfl⟩ := Option.map_eq_some_iff.mp hf
  have hm := (mem_orderBy _ _ _).mp (List.mem_of_mem_head? hv)
  exact List.mem_of_mem_filter (List.mem_of_mem_filter hm)

theorem result_proximaVaga (a : Aluno) (s : World) :
    ∃ x,(a.proximaVaga.exec s).result=.ok x ∧
      x.map (fun x => (x.1.toVagaBase,x.2.toFilaBase))=s.db.core.proximaVaga a ∧
      ∀ y ∈ x,y.1 ∈ s.db.vagas.rows := by
  obtain ⟨log,he,-⟩ := reads_proximaVaga a s
  refine ⟨_,?_,acha_core a s.db,fun y hy => acha_mem hy⟩
  rw [he]

namespace Core

variable {k : Core}

theorem mem_filasAtivas {c : Option Nat} {f : FilaBase} :
    f ∈ k.filasAtivas c ↔ f ∈ k.filas.rows ∧ f.ativo=some true ∧ f.colegiadoId=c := by
  simp [filasAtivas]

/-- The active filas of a colegiado, in the order its desks scan them. -/
theorem filasAtivas_eq (k : Core) (c : Nat) :
    k.filasAtivas (some c)=(k.filasDe c).filter (fun f => f.ativo==some true) := by
  rw [filasDe,← orderBy_filter,List.filter_filter,filasAtivas]

theorem mem_vagasAPartir {a : Aluno} {f : FilaBase} {v : VagaBase} :
    v ∈ k.vagasAPartir a f ↔
      v ∈ k.vagasDe f.id ∧ v.alunoId=some a.id ∧ ∃ p ∈ v.posicao,f.posicao≤p := by
  simp [vagasAPartir]

theorem proximaVaga_eq_some_iff {a : Aluno} {v : VagaBase} {f : FilaBase} :
    k.proximaVaga a=some (v,f) ↔ ∃ pre post,
      k.filasAtivas (k.colegiadoDe a.colegiadoId)=pre++f::post ∧
      (∀ g ∈ pre,k.vagasAPartir a g=[]) ∧ (k.vagasAPartir a f).head?=some v := by
  rw [proximaVaga,List.findSome?_eq_some_iff]
  constructor
  · rintro ⟨pre,g,post,hl,hg,hn⟩
    obtain ⟨w,hw,he⟩ := Option.map_eq_some_iff.mp hg
    obtain ⟨rfl,rfl⟩ := Prod.mk.inj he
    exact ⟨pre,post,hl,fun g hg => by simpa using hn g hg,hw⟩
  · rintro ⟨pre,post,hl,hn,hv⟩
    exact ⟨pre,f,post,hl,by simp [hv],fun g hg => by simp [hn g hg]⟩

/-- Each fila of the loop adds the length of what is left of it. -/
theorem somaFilas_eq (hc : k.Contigua) (fs : List FilaBase) (n : Int)
    (h : ∀ f ∈ fs,k.vagasDe f.id≠[]) : k.somaFilas fs n=
      .ok (n+(fs.map (fun f => max 0 (((k.vagasDe f.id).length : Int)-f.posicao))).sum) := by
  induction fs generalizing n with
  | nil => simp [somaFilas]
  | cons f fs ih =>
    have hv := List.getLast?_eq_some_getLast (h f List.mem_cons_self)
    rw [somaFilas,hv,Option.bind_some,(hc f.id).getLast_pos hv]
    dsimp only
    rw [ih _ (fun g hg => h g (List.mem_cons_of_mem f hg)),List.map_cons,List.sum_cons]
    congr 1
    split_ifs <;> omega

theorem nonempty_of_somaFilas {fs : List FilaBase} {n m : Int} (h : k.somaFilas fs n=.ok m) :
    ∀ f ∈ fs,k.vagasDe f.id≠[] := by
  induction fs generalizing n with
  | nil => simp
  | cons f fs ih =>
    rw [somaFilas] at h
    cases hv : (k.vagasDe f.id).getLast? with
    | none => simp [hv] at h
    | some v =>
      rw [hv,Option.bind_some] at h
      cases hp : v.posicao with
      | none => simp [hp] at h
      | some p =>
        rw [hp] at h
        intro g hg
        rcases List.mem_cons.mp hg with rfl | hg
        · intro hn
          simp [hn] at hv
        · exact ih h g hg

/-- The filas the loop counts are those scanned before that have a prioridade, when no two have the
same. -/
theorem filter_antes {fs pre post : List FilaBase} {f : FilaBase} (hfs : fs=pre++f::post)
    (hs : fs.Pairwise (fun a b => NullsFirst a.prioridade b.prioridade))
    (hn : ∀ g ∈ pre,g.prioridade≠f.prioridade) :
    fs.filter (Aluno.antes f.prioridade)=pre.filter (fun g => g.prioridade.isSome) := by
  subst hfs
  rw [List.pairwise_append,List.pairwise_cons] at hs
  obtain ⟨-,⟨hfp,-⟩,hpf⟩ := hs
  have hpre : pre.filter (Aluno.antes f.prioridade)=
      pre.filter (fun g => g.prioridade.isSome) := by
    refine List.filter_congr (fun g hg => ?_)
    have hle := hpf g hg f List.mem_cons_self
    have hne := hn g hg
    cases hq : g.prioridade with
    | none => simp [Aluno.antes,hq]
    | some q =>
      cases hp : f.prioridade with
      | none => simp [hq,hp,NullsFirst] at hle
      | some p =>
        simp only [hp,hq,NullsFirst,ne_eq,Option.some.injEq] at hle hne
        simp only [Aluno.antes,hq,Option.mem_def,Option.some.injEq,exists_eq_left',
          Option.isSome_some,decide_eq_true_eq]
        omega
  have hpost : (f::post).filter (Aluno.antes f.prioridade)=[] := by
    rw [List.filter_eq_nil_iff]
    intro g hg
    simp only [Aluno.antes,Option.mem_def,decide_eq_true_eq,not_exists,not_and]
    intro p hp q hq
    rcases List.mem_cons.mp hg with rfl | hg
    · rw [hp] at hq
      have := Option.some.inj hq
      omega
    · have hle := hfp g hg
      simp only [hp,hq,NullsFirst] at hle
      omega
  rw [List.filter_append,hpre,hpost,List.append_nil]

theorem nodup_espera (k : Core) (c : Nat) : (k.espera c).Nodup := by
  rw [espera,List.nodup_flatten]
  constructor
  · intro l hl
    obtain ⟨f,-,rfl⟩ := List.mem_map.mp hl
    exact (List.Nodup.of_map _ (k.ids_nodup f.id)).sublist (List.drop_sublist _ _)
  · rw [List.pairwise_map]
    have h : (k.filasDe c).Pairwise (fun a b => a.id≠b.id) :=
      List.pairwise_map.mp (k.nodup_filasDe c)
    refine h.imp ?_
    intro f g hne v hv hg
    have hvf := (mem_vagasDe.mp (List.mem_of_mem_drop hv)).2
    have hvg := (mem_vagasDe.mp (List.mem_of_mem_drop hg)).2
    rw [hvf] at hvg
    exact hne (Option.some.inj hvg)

/-- All filas of the colegiado are active, and their prioridades are different values. -/
structure Ordenado (k : Core) (c : Nat) : Prop where
  ativas : ∀ f ∈ k.filasDe c,f.ativo=some true
  distintas : ∀ f ∈ k.filasDe c,∀ g ∈ k.filasDe c,f.prioridade=g.prioridade → f=g

theorem length_lanes {fs : List FilaBase} (hn : ∀ f ∈ fs,0≤f.posicao ∧
      f.posicao≤((k.vagasDe f.id).length : Int)) :
    (fs.map (fun f => max 0 (((k.vagasDe f.id).length : Int)-f.posicao))).sum=
      (((fs.map k.lane).flatten).length : Int) := by
  induction fs with
  | nil => rfl
  | cons f fs ih =>
    obtain ⟨h0,h1⟩ := hn f List.mem_cons_self
    rw [List.map_cons,List.sum_cons,ih (fun g hg => hn g (List.mem_cons_of_mem f hg))]
    simp only [List.map_cons,List.flatten_cons,List.length_append,lane,List.length_drop]
    omega

/-- Where the rows of one fila stand in the waiting list. -/
theorem getElem?_espera {c i : Nat} {f : FilaBase} {pre post : List FilaBase}
    (hl : k.filasDe c=pre++f::post) (hlo : f.posicao.toNat ≤ i) (hi : i<(k.vagasDe f.id).length) :
    (k.espera c)[((pre.map k.lane).flatten).length+(i-f.posicao.toNat)]?=(k.vagasDe f.id)[i]? := by
  rw [espera,hl,List.map_append,List.flatten_append,
    List.getElem?_append_right (Nat.le_add_right _ _),Nat.add_sub_cancel_left,
    List.map_cons,List.flatten_cons,lane,List.getElem?_append_left]
  · rw [List.getElem?_drop,Nat.add_sub_cancel' hlo]
  · rw [List.length_drop]
    omega

/-- The filas before `f` have another prioridade. -/
theorem Ordenado.prioridade_ne {c : Nat} (ho : k.Ordenado c) {f : FilaBase}
    {pre post : List FilaBase} (hl : k.filasDe c=pre++f::post) :
    ∀ g ∈ pre,g.prioridade≠f.prioridade := by
  intro g hg he
  have hgf := ho.distintas g (hl ▸ by simp [hg]) f (hl ▸ by simp) he
  have hnd := k.nodup_filasDe c
  rw [hl,List.map_append,List.map_cons,List.nodup_append] at hnd
  exact hnd.2.2 g.id (List.mem_map.mpr ⟨g,hg,rfl⟩) f.id (by simp) (by rw [hgf])

/-- Nobody waits in a fila without a prioridade, unless the aluno does. -/
def FilasContadas (k : Core) (a : Aluno) (c : Nat) : Prop :=
  ∀ g ∈ k.filasDe c,g.prioridade=none →
    ((k.vagasDe g.id).length : Int)≤g.posicao ∨ k.vagasAPartir a g≠[]

/-- Those who wait in the filas that come first without a prioridade. -/
def esquecidas (k : Core) (pre : List FilaBase) : List VagaBase :=
  ((pre.filter (fun g => !g.prioridade.isSome)).map k.lane).flatten

theorem length_esquecidas (k : Core) (pre : List FilaBase) :
    (((pre.filter (fun g => g.prioridade.isSome)).map k.lane).flatten).length+
      (k.esquecidas pre).length=((pre.map k.lane).flatten).length := by
  have h := ((List.filter_append_perm (fun g : FilaBase => g.prioridade.isSome) pre).map
    k.lane).flatten.length_eq
  rwa [List.map_append,List.flatten_append,List.length_append] at h

/-- The filas before that of the aluno leave nobody out exactly if none in the colegiado does. -/
theorem esquecidas_eq_nil_iff (hn : k.NaLista) {c : Nat} (ho : k.Ordenado c) {a : Aluno}
    {f : FilaBase} {pre post : List FilaBase} (hl : k.filasDe c=pre++f::post)
    (hpre : ∀ g ∈ pre,k.vagasAPartir a g=[]) (hf : k.vagasAPartir a f≠[]) :
    k.esquecidas pre=[] ↔ k.FilasContadas a c := by
  have hlane : ∀ g ∈ pre,k.lane g=[] ↔ ((k.vagasDe g.id).length : Int)≤g.posicao := by
    intro g hg
    have h0 := (hn g (mem_filasDe.mp (hl ▸ by simp [hg] : g ∈ k.filasDe c)).1).1
    rw [lane,List.drop_eq_nil_iff]
    omega
  have hsort := orderBy_sorted FilaBase.prioridade
    (k.filas.rows.filter (fun f => f.colegiadoId==some c))
  change (k.filasDe c).Pairwise _ at hsort
  rw [hl,List.pairwise_append,List.pairwise_cons] at hsort
  obtain ⟨-,⟨hfp,-⟩,-⟩ := hsort
  have hnil : k.esquecidas pre=[] ↔ ∀ g ∈ pre,g.prioridade=none → k.lane g=[] := by
    rw [esquecidas,List.flatten_eq_nil_iff,List.forall_mem_map]
    simp
  rw [hnil]
  constructor
  · intro h g hg hp
    rw [hl,List.mem_append,List.mem_cons] at hg
    rcases hg with hg | rfl | hg
    · exact Or.inl ((hlane g hg).mp (h g hg hp))
    · exact Or.inr hf
    · -- past `f` there is no fila without a prioridade but `f` itself
      have hle := hfp g hg
      have hfn : f.prioridade=none := by
        cases hfp : f.prioridade with
        | none => rfl
        | some p => simp [hfp,hp,NullsFirst] at hle
      have hfg := ho.distintas f (hl ▸ by simp) g (hl ▸ by simp [hg]) (hfn.trans hp.symm)
      exact Or.inr (hfg ▸ hf)
  · intro h g hg hp
    exact (hlane g hg).mpr ((h g (hl ▸ by simp [hg]) hp).resolve_right (not_not_intro (hpre g hg)))

/-- `posicao_total` is the place of the aluno's vaga in the waiting list without those who wait in
a fila that has no prioridade. -/
theorem espera_posicaoTotal (hc : k.Contigua) (hn : k.NaLista) {c : Nat} (ho : k.Ordenado c)
    {a : Aluno} (ha : k.colegiadoDe a.colegiadoId=some c) {n : Int} (h0 : 0<n)
    (h : k.posicaoTotal a=.ok n) :
    ∃ v f m,k.proximaVaga a=some (v,f) ∧ (k.espera c)[n.toNat-1+m]?=some v ∧
      (m=0 ↔ k.FilasContadas a c) := by
  have hat : k.filasAtivas (some c)=k.filasDe c := by
    rw [filasAtivas_eq,List.filter_eq_self]
    intro f hf
    simp [ho.ativas f hf]
  rw [posicaoTotal] at h
  cases hp : k.proximaVaga a with
  | none =>
    simp [hp] at h
    omega
  | some x =>
    obtain ⟨v,f⟩ := x
    rw [hp] at h
    dsimp only at h
    split_ifs at h with hv
    · simp at h
      omega
    · obtain ⟨pre,post,hl,hpre,hh⟩ := proximaVaga_eq_some_iff.mp hp
      rw [ha,hat] at hl
      have hm : ∀ g ∈ pre++f::post,g ∈ k.filas.rows := fun g hg =>
        (mem_filasDe.mp (hl ▸ hg : g ∈ k.filasDe c)).1
      obtain ⟨hvf,-,p,hvp,hle⟩ := mem_vagasAPartir.mp (List.mem_of_mem_head? hh)
      obtain ⟨i,hi,hiv,hip⟩ := (hc f.id).pos_of_mem hvf
      rw [Option.mem_def] at hvp
      obtain rfl : (i : Int)+1=p := by rw [hip] at hvp; exact Option.some.inj hvp
      have hne : (i : Int)+1≠f.posicao := by
        intro he
        exact hv (by rw [hip,he])
      have hsort := orderBy_sorted FilaBase.prioridade
        (k.filas.rows.filter (fun f => f.colegiadoId==some c))
      have hfa := filter_antes hl hsort (ho.prioridade_ne hl)
      rw [posicaoApos,ha,hat,hfa] at h
      have hlen := k.length_esquecidas pre
      have hnil := esquecidas_eq_nil_iff hn ho hl hpre (fun he => by simp [he] at hh)
      refine ⟨v,f,(k.esquecidas pre).length,rfl,?_,List.length_eq_zero_iff.trans hnil⟩
      cases hs : k.somaFilas (pre.filter (fun g => g.prioridade.isSome)) 0 with
      | error e => simp [hs,Except.bind] at h
      | ok soma =>
        have hsum := somaFilas_eq hc _ 0 (nonempty_of_somaFilas hs)
        rw [length_lanes (fun g hg => hn g (hm g (by simp [List.mem_of_mem_filter hg]))),hs] at hsum
        simp only [Except.ok.injEq] at hsum
        obtain ⟨hf0,-⟩ := hn f (hm f (by simp))
        rw [hs,hip] at h
        simp only [Except.bind,Except.ok.injEq] at h
        rw [if_pos (by omega)] at h
        have hidx : n.toNat-1+(k.esquecidas pre).length=
            ((pre.map k.lane).flatten).length+(i-f.posicao.toNat) := by omega
        have hfi : f.posicao.toNat ≤ i := by omega
        rw [hidx,getElem?_espera hl hfi hi,hiv]

end Core

namespace Core

/-- The front of the waiting list holds a vaga exactly from its own place on. -/
theorem id_mem_take_espera (k : Core) {c i m : Nat} {v : VagaBase} (hi : (k.espera c)[i]?=some v) :
    v.id ∈ ((k.espera c).take m).map (fun v => v.id) ↔ i < m := by
  have hlt := (List.getElem?_eq_some_iff.mp hi).1
  have hvm : ∀ w ∈ k.espera c,w ∈ k.vagas.rows := by
    intro w hw
    obtain ⟨l,hl,hw⟩ := List.mem_flatten.mp hw
    obtain ⟨g,-,rfl⟩ := List.mem_map.mp hl
    exact (mem_vagasDe.mp (List.mem_of_mem_drop hw)).1
  constructor
  · intro hm
    obtain ⟨w,hw,hid⟩ := List.mem_map.mp hm
    have hwv : w=v := k.vagas.key_injective
      (hvm w (List.mem_of_mem_take hw)) (hvm v (List.mem_of_getElem? hi)) hid
    obtain ⟨j,hj⟩ := List.mem_iff_getElem?.mp hw
    have hj' := (List.getElem?_eq_some_iff.mp hj).1
    rw [List.length_take] at hj'
    rw [List.getElem?_take_of_lt (by omega),hwv] at hj
    have hji := (List.getElem?_inj (by omega) (k.nodup_espera c)).mp (hj.trans hi.symm)
    omega
  · intro hle
    refine List.mem_map.mpr ⟨v,List.mem_iff_getElem?.mpr ⟨i,?_⟩,rfl⟩
    rw [List.getElem?_take_of_lt hle,hi]

end Core

/-- Nobody waits in a fila without a prioridade, unless the aluno does: such a fila is scanned first
and never counted. -/
def Aluno.FilasContadas (a : Aluno) (c : Nat) (d : Db) : Prop :=
  ∀ g ∈ Colegiado.filasDe c d,g.prioridade=none →
    (d.contaVagas g.id : Int)≤g.posicao ∨ a.vagasAPartir g d≠[]

instance (a : Aluno) (c : Nat) (d : Db) : Decidable (a.FilasContadas c d) :=
  inferInstanceAs (Decidable (∀ g ∈ Colegiado.filasDe c d,_))

theorem Db.filasContadas_core (d : Db) (a : Aluno) (c : Nat) :
    d.core.FilasContadas a c ↔ a.FilasContadas c d := by
  simp only [Core.FilasContadas,Aluno.FilasContadas,Db.filasDe_core,List.forall_mem_map,
    ← Db.contaVagas_core,Db.vagasAPartir_core,ne_eq,List.map_eq_nil_iff]

/-- The position shown is the number of calls still to come, unless somebody waits in a fila without
a prioridade: then requests in a row on the colegiado put the vaga on a desk exactly when at least
`n` of them come from a desk. With exactly `n` that condition decides. -/
theorem posicaoTotal_chamadas {s₀ s : World} {es : List Evento}
    (hz : ∀ f ∈ s₀.db.filas.rows,f.posicao=0) (hv : s₀.db.vagas.rows=[])
    (h : Corre (quaisquer [.inscrever,.filasProximo,.colegiadosProximo]) s₀ es s) {c : Nat}
    (hat : ∀ f ∈ Colegiado.filasDe c s.db,f.ativo=some true)
    (hd : ∀ f ∈ Colegiado.filasDe c s.db,∀ g ∈ Colegiado.filasDe c s.db,
      f.prioridade=g.prioridade → f=g)
    {a : Aluno} (ha : s.db.colegiadoDe a.colegiadoId=some c) {n : Int} (hn : 0<n)
    (ht : (a.posicaoTotal.exec s).result=.ok n) :
    ∃ v f,(a.proximaVaga.exec s).result=.ok (some (v,f)) ∧ ∀ us : List Sessao,
      let chamada := (Requisicao.sucessivas (us.map (fun u => .colegiadosProximo u c))).exec s
      let m := us.countP (fun u => (u.mesa.bind s.db.mesas.find).isSome)
      chamada.ok=true →
        (a.FilasContadas c s.db → (v.id ∈ chamadas chamada.log ↔ n≤(m : Int))) ∧
        (m=n → (v.id ∈ chamadas chamada.log ↔ a.FilasContadas c s.db)) := by
  have hc := h.contigua hv
  have hl := h.naLista (by intro r ok hr he; simp [quaisquer,he] at hr) hz
  have ho : s.db.core.Ordenado c := by
    constructor
    · intro f hf
      rw [Db.filasDe_core] at hf
      obtain ⟨g,hg,rfl⟩ := List.mem_map.mp hf
      exact hat g hg
    · intro f hf g hg he
      rw [Db.filasDe_core] at hf hg
      obtain ⟨f',hf',rfl⟩ := List.mem_map.mp hf
      obtain ⟨g',hg',rfl⟩ := List.mem_map.mp hg
      rw [hd f' hf' g' hg' he]
  rw [result_posicaoTotal] at ht
  obtain ⟨v,f,e,hp,hi,he⟩ := Core.espera_posicaoTotal hc hl ho ha hn ht
  obtain ⟨x,hx,hxp,-⟩ := result_proximaVaga a s
  rw [hp] at hxp
  obtain ⟨y,rfl,hy⟩ := Option.map_eq_some_iff.mp hxp
  obtain ⟨rfl,rfl⟩ := Prod.mk.inj hy
  refine ⟨y.1,y.2,hx,?_⟩
  intro us chamada m hok
  have hm : m=us.countP s.db.core.temMesa := rfl
  rw [chamadas_sucessivas c us s hc hl hok,Core.id_mem_take_espera _ hi,← hm,
    ← Db.filasContadas_core,← he]
  constructor
  · intro h0
    omega
  · intro hmn
    omega

/-- The second of two alunos is called by the second request. -/
theorem posicaoTotal_chamadas_cenario : ∃ es s,
    Corre (quaisquer [.inscrever,.filasProximo,.colegiadosProximo])
      (Cenario.world Cenario.medida .empty) es s ∧
    ((Cenario.aluno 2 "b").posicaoTotal.exec s).result=.ok 2 ∧
    (Cenario.aluno 2 "b").FilasContadas 1 s.db ∧
    ((Requisicao.sucessivas ([Cenario.mesa 1,Cenario.mesa 2].map
      (fun u => .colegiadosProximo u 1))).exec s).ok=true ∧
    ∃ v f,((Cenario.aluno 2 "b").proximaVaga.exec s).result=.ok (some (v,f)) ∧
      v.id ∈ chamadas ((Requisicao.sucessivas ([Cenario.mesa 1,Cenario.mesa 2].map
        (fun u => .colegiadosProximo u 1))).exec s).log := by
  have h := corre_executa [.inscrever,.filasProximo,.colegiadosProximo]
    (Cenario.world Cenario.medida .empty) [Cenario.inscreve "a",Cenario.inscreve "b"] (by decide)
  have hf : (Cenario.aluno 2 "b").FilasContadas 1 (executa (Cenario.world Cenario.medida .empty)
      [Cenario.inscreve "a",Cenario.inscreve "b"]).2.db := by decide +kernel
  refine ⟨_,_,h,by rfl,hf,by decide +kernel,?_⟩
  obtain ⟨v,f,hp,hus⟩ := posicaoTotal_chamadas (c := 1) (a := Cenario.aluno 2 "b") (n := 2)
    (by decide +kernel) (by decide +kernel) h (by decide +kernel) (by decide +kernel)
    (by decide +kernel) (by decide) (by rfl)
  have hus := (hus [Cenario.mesa 1,Cenario.mesa 2] (by decide +kernel)).1 hf
  exact ⟨v,f,hp,hus.mpr (by decide +kernel)⟩

/-- With the prioridades 2 and NULL the aluno of the first fila is told to be next, and the next
request calls the other one. -/
theorem posicaoTotal_chamadas_falha : ∃ es s,
    Corre (quaisquer [.inscrever,.filasProximo,.colegiadosProximo])
      (Cenario.doisGrupos Cenario.semPrioridade) es s ∧
    (∀ f ∈ (Cenario.doisGrupos Cenario.semPrioridade).db.filas.rows,f.posicao=0) ∧
    (Cenario.doisGrupos Cenario.semPrioridade).db.vagas.rows=[] ∧
    (∀ f ∈ Colegiado.filasDe 1 s.db,f.ativo=some true) ∧
    (∀ f ∈ Colegiado.filasDe 1 s.db,∀ g ∈ Colegiado.filasDe 1 s.db,
      f.prioridade=g.prioridade → f=g) ∧
    ((Cenario.aluno 1 "a").posicaoTotal.exec s).result=.ok 1 ∧
    ((Requisicao.sucessivas [.colegiadosProximo (Cenario.mesa 1) 1]).exec s).ok=true ∧
    ∃ v f,((Cenario.aluno 1 "a").proximaVaga.exec s).result=.ok (some (v,f)) ∧
      v.id ∉ chamadas ((Requisicao.sucessivas [.colegiadosProximo (Cenario.mesa 1) 1]).exec s).log
        := by
  have h := corre_executa [.inscrever,.filasProximo,.colegiadosProximo]
    (Cenario.doisGrupos Cenario.semPrioridade) [Cenario.inscreve "a",Cenario.inscreve "b"]
    (by decide)
  refine ⟨_,_,h,by decide +kernel,by decide +kernel,by decide +kernel,by decide +kernel,by rfl,
    by decide +kernel,_,_,by rfl,by decide +kernel⟩

end Sisfila
