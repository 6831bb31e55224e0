import Mathlib.Algebra.BigOperators.Group.List.Basic
import Sisfila.Queue.Position

namespace Sisfila

namespace Core

variable {k : Core}

/-- What a call by the desks of colegiado `c` needs so that the aluno had been told: the fila is
active and the aluno is of `c`; every active fila with a smaller prioridade has a vaga; and the
aluno has no vaga exactly at the pointer of the fila or of an active one scanned before it. -/
def Avisado (k : Core) (c : Nat) (a : Aluno) (v : VagaBase) : Prop :=
  ∃ f ∈ k.filas.rows,v.filaId=some f.id ∧ f.ativo=some true ∧
    k.colegiadoDe a.colegiadoId=some c ∧
    (∀ g ∈ k.filasAtivas (some c),Aluno.antes f.prioridade g=true → k.vagasDe g.id≠[]) ∧
    ∀ g ∈ f::(k.filasAtivas (some c)).takeWhile (fun g => g.id≠f.id),∀ w ∈ k.vagasDe g.id,
      w.alunoId=some a.id → w.posicao≠some g.posicao

/-- The fila a call goes to, among those scanned: nobody waits in the ones before it. -/
theorem proximaFila_split {c : Nat} {f : FilaBase} (h : k.proximaFila c=some f) :
    ∃ pre post,k.filasDe c=pre++f::post ∧ (∀ g ∈ pre,g.id≠f.id) ∧
      ∀ g ∈ pre,((k.vagasDe g.id).length : Int)≤g.posicao := by
  rw [proximaFila,List.find?_eq_some_iff_append] at h
  obtain ⟨-,pre,post,hl,hn⟩ := h
  refine ⟨pre,post,hl,?_,fun g hg => by simpa using hn g hg⟩
  have hd := k.nodup_filasDe c
  rw [hl,List.map_append,List.map_cons,List.nodup_append] at hd
  exact fun g hg => hd.2.2 g.id (List.mem_map.mpr ⟨g,hg,rfl⟩) f.id (by simp)

/-- In a list nobody waits in, only a vaga exactly at the pointer is at or past it. -/
theorem vagasAPartir_eq_nil (hc : k.Contigua) {a : Aluno} {g : FilaBase}
    (hg : ((k.vagasDe g.id).length : Int)≤g.posicao)
    (h : ∀ w ∈ k.vagasDe g.id,w.alunoId=some a.id → w.posicao≠some g.posicao) :
    k.vagasAPartir a g=[] := by
  rw [List.eq_nil_iff_forall_not_mem]
  intro w hw
  obtain ⟨hwm,hwa,p,hp,hle⟩ := mem_vagasAPartir.mp hw
  obtain ⟨i,hi,-,hip⟩ := (hc g.id).pos_of_mem hwm
  rw [Option.mem_def,hip,Option.some.injEq] at hp
  refine h w hwm hwa ?_
  rw [hip,Option.some.injEq]
  omega

/-- The first of the aluno's vagas from the pointer on is the one right after it, unless another
is exactly at it. -/
theorem head_vagasAPartir (hc : k.Contigua) {a : Aluno} {f : FilaBase} {v : VagaBase}
    (hv : v ∈ k.vagasDe f.id) (hva : v.alunoId=some a.id) (hvp : v.posicao=some (f.posicao+1)) :
    (k.vagasAPartir a f).head?=some v ↔
      ∀ w ∈ k.vagasDe f.id,w.alunoId=some a.id → w.posicao≠some f.posicao := by
  have hm : v ∈ k.vagasAPartir a f :=
    mem_vagasAPartir.mpr ⟨hv,hva,_,hvp,by omega⟩
  have hs : (k.vagasAPartir a f).Pairwise (fun a b => NullsFirst a.posicao b.posicao) :=
    orderBy_sorted _ _
  cases hl : k.vagasAPartir a f with
  | nil => simp [hl] at hm
  | cons u us =>
    rw [hl,List.pairwise_cons] at hs
    have hu : u ∈ k.vagasAPartir a f := by simp [hl]
    obtain ⟨hum,hua,p,hup,hle⟩ := mem_vagasAPartir.mp hu
    rw [Option.mem_def] at hup
    rw [List.head?_cons,Option.some.injEq]
    constructor
    · rintro rfl w hw hwa hwp
      have hwm : w ∈ u::us := hl ▸ mem_vagasAPartir.mpr ⟨hw,hwa,_,hwp,le_refl _⟩
      rcases List.mem_cons.mp hwm with rfl | hwm
      · rw [hwp,Option.some.injEq] at hvp
        omega
      · have hle' := hs.1 w hwm
        rw [hvp,hwp] at hle'
        simp only [NullsFirst] at hle'
        omega
    · intro hn
      have hne := hn u hum hua
      have hpv : p≤f.posicao+1 := by
        rcases List.mem_cons.mp (hl ▸ hm : v ∈ u::us) with rfl | hvm
        · rw [hvp,Option.some.injEq] at hup
          omega
        · have hle' := hs.1 v hvm
          rw [hup,hvp] at hle'
          exact hle'
      refine (hc f.id).eq_of_pos hum hv ?_
      rw [hup,ne_eq,Option.some.injEq] at hne
      rw [hup,hvp,Option.some.injEq]
      omega

section call

variable {c : Nat} {f : FilaBase} {a : Aluno} {v : VagaBase}

/-- The scan of the active filas, cut at the fila of the call. -/
theorem filasAtivas_split (h : k.proximaFila c=some f) (hf : f.ativo=some true) :
    ∃ pre post,k.filasAtivas (some c)=pre++f::post ∧
      (k.filasAtivas (some c)).takeWhile (fun g => g.id≠f.id)=pre ∧
      ∀ g ∈ pre,((k.vagasDe g.id).length : Int)≤g.posicao := by
  obtain ⟨pre,post,hl,hne,hle⟩ := proximaFila_split h
  have hs : k.filasAtivas (some c)=
      pre.filter (fun f => f.ativo==some true)++f::post.filter (fun f => f.ativo==some true) := by
    rw [filasAtivas_eq,hl,List.filter_append,List.filter_cons_of_pos (by simp [hf])]
  refine ⟨_,_,hs,?_,fun g hg => hle g (List.mem_of_mem_filter hg)⟩
  rw [hs,List.takeWhile_append_of_pos,List.takeWhile_cons_of_neg (by simp),List.append_nil]
  intro g hg
  simpa using hne g (List.mem_of_mem_filter hg)

/-- Filas with a smaller prioridade are scanned first, so nothing is left in them. -/
theorem posicaoApos_eq_one (hc : k.Contigua) (h : k.proximaFila c=some f)
    (hf : f.ativo=some true) (ha : k.colegiadoDe a.colegiadoId=some c) :
    k.posicaoApos a (some (f.posicao+1)) f=.ok 1 ↔
      ∀ g ∈ k.filasAtivas (some c),Aluno.antes f.prioridade g=true → k.vagasDe g.id≠[] := by
  obtain ⟨pre,post,hs,-,hle⟩ := filasAtivas_split h hf
  have hsort : (k.filasAtivas (some c)).Pairwise
      (fun a b => NullsFirst a.prioridade b.prioridade) := orderBy_sorted _ _
  have hpre : ∀ g ∈ (k.filasAtivas (some c)).filter (Aluno.antes f.prioridade),g ∈ pre := by
    intro g hg
    obtain ⟨hgm,hga⟩ := List.mem_filter.mp hg
    simp only [Aluno.antes,decide_eq_true_eq] at hga
    obtain ⟨x,hx,y,hy,hxy⟩ := hga
    rw [Option.mem_def] at hx hy
    rw [hs,List.pairwise_append,List.pairwise_cons] at hsort
    rw [hs] at hgm
    rcases List.mem_append.mp hgm with hgm | hgm
    · exact hgm
    · rcases List.mem_cons.mp hgm with rfl | hgm
      · rw [hx,Option.some.injEq] at hy
        omega
      · have hno := hsort.2.1.1 g hgm
        rw [hy,hx] at hno
        simp only [NullsFirst] at hno
        omega
  have hz : (((k.filasAtivas (some c)).filter (Aluno.antes f.prioridade)).map
      (fun f => max 0 (((k.vagasDe f.id).length : Int)-f.posicao))).sum=0 := by
    refine List.sum_eq_zero ?_
    intro x hx
    obtain ⟨g,hg,rfl⟩ := List.mem_map.mp hx
    have := hle g (hpre g hg)
    omega
  rw [posicaoApos,ha]
  constructor
  · intro h1 g hg hga
    cases hsum : k.somaFilas ((k.filasAtivas (some c)).filter (Aluno.antes f.prioridade)) 0 with
    | error e => simp [hsum,Except.bind] at h1
    | ok n => exact nonempty_of_somaFilas hsum g (List.mem_filter.mpr ⟨hg,hga⟩)
  · intro hne
    rw [somaFilas_eq hc _ 0 (fun g hg => hne g (List.mem_filter.mp hg).1 (List.mem_filter.mp hg).2),
      hz]
    simp [Except.bind]

/-- The student's side agrees with the call exactly under `Avisado`. -/
theorem avisado_iff (hc : k.Contigua) (h : k.proximaFila c=some f) (hv : v ∈ k.vagasDe f.id)
    (hva : v.alunoId=some a.id) (hvp : v.posicao=some (f.posicao+1)) :
    ((∃ g,k.proximaVaga a=some (v,g)) ∧ k.posicaoTotal a=.ok 1) ↔ k.Avisado c a v := by
  have hfm := (k.filas.find_eq_some_iff _ _).mp (proximaFila_find h)
  have hfc : f.colegiadoId=some c :=
    (mem_filasDe.mp (List.mem_of_find?_eq_some h)).2
  have hvf := (mem_vagasDe.mp hv).2
  have hne : v.posicao≠some f.posicao := by
    rw [hvp,ne_eq,Option.some.injEq]
    omega
  constructor
  · rintro ⟨⟨g,hg⟩,ht⟩
    obtain ⟨pre,post,hl,hpre,hh⟩ := proximaVaga_eq_some_iff.mp hg
    have hgm := mem_filasAtivas.mp (hl ▸ by simp : g ∈ k.filasAtivas (k.colegiadoDe a.colegiadoId))
    have hvg := (mem_vagasDe.mp (mem_vagasAPartir.mp (List.mem_of_mem_head? hh)).1).2
    rw [hvf,Option.some.injEq] at hvg
    obtain rfl : f=g := k.filas.key_injective hfm.1 hgm.1 hvg
    have hat := hgm.2.1
    have hac : k.colegiadoDe a.colegiadoId=some c := by rw [← hgm.2.2,hfc]
    refine ⟨f,hfm.1,hvf,hat,hac,?_,?_⟩
    · rw [← posicaoApos_eq_one hc h hat hac]
      simpa [posicaoTotal,hg,hne,hvp] using ht
    · intro g' hg' w hw hwa hwp
      rcases List.mem_cons.mp hg' with rfl | hg'
      · exact (head_vagasAPartir hc hv hva hvp).mp hh w hw hwa hwp
      · rw [← hac,hl,List.takeWhile_append,List.takeWhile_cons_of_neg (by simp)] at hg'
        have hgp : g' ∈ pre := by
          split_ifs at hg'
          · simpa using hg'
          · exact (List.takeWhile_sublist _).subset hg'
        have hwm : w ∈ k.vagasAPartir a g' := mem_vagasAPartir.mpr ⟨hw,hwa,_,hwp,le_refl _⟩
        simp [hpre g' hgp] at hwm
  · rintro ⟨g,hgm,hvg,hat,hac,hne',hn⟩
    rw [hvf,Option.some.injEq] at hvg
    obtain rfl : f=g := k.filas.key_injective hfm.1 hgm hvg
    have hp : k.proximaVaga a=some (v,f) := by
      obtain ⟨pre,post,hs,htw,hle⟩ := filasAtivas_split h hat
      rw [htw] at hn
      refine proximaVaga_eq_some_iff.mpr ⟨pre,post,hac ▸ hs,?_,?_⟩
      · exact fun g hg => vagasAPartir_eq_nil hc (hle g hg) (hn g (by simp [hg]))
      · exact (head_vagasAPartir hc hv hva hvp).mpr (hn f (by simp))
    refine ⟨⟨f,hp⟩,?_⟩
    have ht := (posicaoApos_eq_one hc h hat hac).mpr hne'
    simpa [posicaoTotal,hp,hne,hvp] using ht

end call

/-- Every vaga was created for an aluno, and alunos stay. -/
def ComAluno (k : Core) : Prop := ∀ v ∈ k.vagas.rows,∃ a ∈ k.alunos.rows,v.alunoId=some a.id

theorem Efeito.comAluno {r : Requisicao} {k' : Core} (h : k.Efeito r k') (hk : k.ComAluno) :
    k'.ComAluno := by
  cases h with
  | nada => exact hk
  | inscreve s m a g f t ha =>
    intro v hv
    rw [rows_insereVaga,List.mem_append,List.mem_singleton] at hv
    rcases hv with hv | rfl
    · exact hk v hv
    · exact ⟨a,ha,rfl⟩
  | avanca => exact hk
  | recua => exact hk
  | ativa => exact hk

/-- A colegiado's request seats a vaga only from its next fila, at the place after the pointer. -/
theorem Passo.seats {u : Sessao} {c m i : Nat} {ok : Bool} {ms : List Evento} {k' : Core}
    (h : k.Passo (.colegiadosProximo u c) ok ms k') (hm : .associa m (some i) ∈ ms) :
    ∃ f v,k.proximaFila c=some f ∧ k.vagaEm f.id (f.posicao+1)=some v ∧ v.id=i := by
  cases h with
  | recusa => simp at hm
  | semMesa => simp at hm
  | colegiadosFim s c d hd hf he => cases he <;> simp at hm
  | colegiadosProximo s c d f hd hf hc =>
    cases hc with
    | falha => simp at hm
    | semMesa => simp at hm
    | feita d' t hd' =>
      simp only [List.mem_cons,reduceCtorEq,Evento.associa.injEq,List.not_mem_nil,or_false,
        false_or] at hm
      obtain ⟨v,hv,hi⟩ := Option.map_eq_some_iff.mp hm.2.symm
      exact ⟨f,v,hf,hv,hi⟩

end Core

/-- Whoever is called was told they were next exactly when, before the request, the fila was active
and of the aluno's colegiado, no active fila before it was empty, and no vaga of the aluno stood
exactly at a pointer scanned so far. -/
theorem chamado_avisado {s₀ s : World} {es : List Evento} (hv : s₀.db.vagas.rows=[])
    (h : Corre (quaisquer [.inscrever,.filasProximo,.colegiadosProximo,.filasUpdateAtivo]) s₀ es s)
    (u : Sessao) (c m i : Nat)
    (hm : .associa m (some i) ∈ ((ColegiadosController.proximo u c).exec s).log) :
    ∃ v ∈ s.db.vagas.rows,v.id=i ∧ ∃ a ∈ s.db.alunos.rows,v.alunoId=some a.id ∧
      (((∃ f,(a.proximaVaga.exec s).result=.ok (some (v,f))) ∧
        (a.posicaoTotal.exec s).result=.ok 1) ↔ s.db.core.Avisado c a v.toVagaBase) := by
  have hc := h.contigua hv
  have hca := h.invariante (fun k _ => k.ComAluno)
    (by intro v hm; simp [hv] at hm) (fun _ _ _ _ _ _ hk _ hp => hp.efeito.comAluno hk)
  have hp := (Requisicao.colegiadosProximo u c).passo s
  obtain ⟨f,v,hf,hvf,hvi⟩ := hp.seats (List.mem_filter.mpr ⟨hm,rfl⟩)
  have hvm := List.mem_of_find?_eq_some hvf
  have hvp : v.posicao=some (f.posicao+1) := by simpa using List.find?_some hvf
  obtain ⟨hvr,-⟩ := Core.mem_vagasDe.mp hvm
  obtain ⟨w,hw,rfl⟩ := List.mem_map.mp hvr
  obtain ⟨a,ha,hwa⟩ := hca _ hvr
  refine ⟨w,hw,hvi,a,ha,hwa,?_⟩
  rw [← Core.avisado_iff hc hf hvm hwa hvp,result_posicaoTotal]
  obtain ⟨x,hx,hxp,hxm⟩ := result_proximaVaga a s
  rw [hx,← hxp]
  refine and_congr_left (fun _ => ?_)
  constructor
  · rintro ⟨g,hg⟩
    obtain rfl := Except.ok.inj hg
    exact ⟨g.toFilaBase,rfl⟩
  · rintro ⟨g,hg⟩
    obtain ⟨y,rfl,hy⟩ := Option.map_eq_some_iff.mp hg
    obtain ⟨hyw,-⟩ := Prod.mk.inj hy
    have he : y.1=w := s.db.vagas.key_injective (hxm y rfl) hw (congrArg VagaBase.id hyw)
    exact ⟨y.2,by rw [← he]⟩

/-- Five alunos wait and two calls have failed half-way; the third succeeds. -/
def Cenario.terceira : List Requisicao :=
  [inscreve "a",inscreve "b",inscreve "c",inscreve "d",inscreve "e",
    .colegiadosProximo (mesa 1) 1,.colegiadosProximo (mesa 1) 1]

theorem chamado_avisado_cenario : ∃ es s,
    Corre (quaisquer [.inscrever,.filasProximo,.colegiadosProximo,.filasUpdateAtivo])
      (Cenario.world Cenario.nova .empty) es s ∧
    .associa 1 (some 3) ∈ ((ColegiadosController.proximo (Cenario.mesa 1) 1).exec s).log ∧
    ∃ v ∈ s.db.vagas.rows,v.id=3 ∧ ∃ a ∈ s.db.alunos.rows,v.alunoId=some a.id ∧
      (∃ f,(a.proximaVaga.exec s).result=.ok (some (v,f))) ∧
      (a.posicaoTotal.exec s).result=.ok 1 := by
  have h := corre_executa [.inscrever,.filasProximo,.colegiadosProximo,.filasUpdateAtivo]
    (Cenario.world Cenario.nova .empty) Cenario.terceira (by decide)
  obtain ⟨v,hv,hid,a,ha,hva,hiff⟩ :=
    chamado_avisado (by decide +kernel) h (Cenario.mesa 1) 1 1 3 (by decide +kernel)
  refine ⟨_,_,h,by decide +kernel,v,hv,hid,a,ha,hva,hiff.mpr ?_⟩
  have hd : ∀ v ∈ (executa (Cenario.world Cenario.nova .empty) Cenario.terceira).2.db.vagas.rows,
      v.id=3 → ∀ a ∈ (executa (Cenario.world Cenario.nova .empty)
        Cenario.terceira).2.db.alunos.rows,v.alunoId=some a.id →
        (executa (Cenario.world Cenario.nova .empty) Cenario.terceira).2.db.core.Avisado 1 a
          v.toVagaBase := by
    unfold Core.Avisado
    decide +kernel
  exact hd v hv hid a ha hva

/-- The fila is switched off before the third call: the aluno called had been told that there was
no vaga. -/
theorem chamado_avisado_inativa : ∃ es s,
    Corre (quaisquer [.inscrever,.filasProximo,.colegiadosProximo,.filasUpdateAtivo])
      (Cenario.world Cenario.nova .empty) es s ∧
    .associa 1 (some 3) ∈ ((ColegiadosController.proximo (Cenario.mesa 1) 1).exec s).log ∧
    (s.db.vagas.find 3).bind (fun v => v.alunoId)=some 3 ∧
    ((Cenario.aluno 3 "c").proximaVaga.exec s).result=.ok none ∧
    ((Cenario.aluno 3 "c").posicaoTotal.exec s).result=.ok (-1) := by
  have h := corre_executa [.inscrever,.filasProximo,.colegiadosProximo,.filasUpdateAtivo]
    (Cenario.world Cenario.nova .empty)
    (Cenario.terceira++[.filasUpdateAtivo (Cenario.mesa 1) 1 (some false)]) (by decide)
  exact ⟨_,_,h,by decide +kernel,by decide +kernel,by rfl,by rfl⟩

end Sisfila
